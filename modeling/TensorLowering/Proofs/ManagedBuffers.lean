import TensorLowering.Proofs.Identifiers
import TensorLowering.Proofs.TileSteps

/-! # Buffers that tiling leaves alone

Tiling makes arenas, views and tables under identifiers of its own. These buffers are placed
statically and hold no pointers, so their names are unmanaged
(`TensorLowering.Context.Unmanaged`). All steps of tiling leave the other names alone
(`TensorLowering.Context.Tended`). Hence the references among touched names depend on the names
that are managed only, and they are the same before and after tiling
(`TensorLowering.Context.Tended.referencesAmong_eq`).
-/

namespace TensorLowering

open Relation

/-- Dropping an entry that is not chosen leaves the chosen ones. -/
theorem BufferTable.filter_eraseIn {name : String} {chosen : Buffer → Bool}
    {entries : List Buffer}
    (passed : ∀ buffer ∈ entries, buffer.name = name → chosen buffer = false) :
    (eraseIn name entries).filter chosen = entries.filter chosen := by
  induction entries with
  | nil => rfl
  | cons head rest ih =>
      obtain ⟨headPassed, restPassed⟩ := List.forall_mem_cons.mp passed
      rw [eraseIn]
      split
      · rw [List.filter_cons, List.filter_cons, ih restPassed]
      · split
        · next named =>
            rw [List.filter_cons_of_neg (by rw [headPassed named]; exact Bool.false_ne_true)]
        · rfl

namespace Context

/-- No buffer under a name is deployed or holds pointers. -/
def Unmanaged (context : Context) (name : String) : Prop :=
  ∀ buffer ∈ context.buffers, buffer.name = name → buffer.deploy = false ∧ buffer.isStruct = false

instance (context : Context) (name : String) : Decidable (context.Unmanaged name) :=
  inferInstanceAs (Decidable (∀ buffer ∈ context.buffers, _))

namespace SameCores

variable {first second : Context}

theorem unmanaged {name : String} (same : SameCores first second) (before : first.Unmanaged name) :
    second.Unmanaged name := by
  intro buffer member named
  have cores : buffer.core ∈ first.buffers.map Buffer.core := by
    rw [buffers, List.map_append, same.1, same.2, ← List.map_append]
    exact List.mem_map_of_mem member
  obtain ⟨other, listed, sameCore⟩ := List.mem_map.mp cores
  have static := before other listed ((congrArg Buffer.name sameCore).trans named)
  exact ⟨(congrArg Buffer.deploy sameCore).symm.trans static.1,
    (congrArg Buffer.isStruct sameCore).symm.trans static.2⟩

theorem deployed_eq {first second : List Buffer}
    (same : first.map Buffer.core = second.map Buffer.core) :
    (first.filter (·.deploy)).map Buffer.name = (second.filter (·.deploy)).map Buffer.name := by
  have names := congrArg (fun cores => (cores.filter (·.deploy)).map Buffer.name) same
  simp only [List.filter_map, List.map_map] at names
  exact names

end SameCores

/-- References are deployed local buffers that the touched names lead to. -/
theorem referencesAmong_eq_filter (context : Context) (touched : List String) :
    context.referencesAmong .unrolled touched =
      ((context.locals.entries.filter (·.deploy)).map Buffer.name).filter
        (context.spread .unrolled touched).contains := by
  rw [referencesAmong_unrolled, List.filter_map, List.filter_filter]
  congr 2
  funext buffer
  exact Bool.and_comm _ _

theorem mem_pointees_iff {context : Context} {source target : String} :
    target ∈ context.pointees source ↔
      ∃ value, (context.find? source).map Buffer.kind = some (.struct value) ∧
        target ∈ value.value.pointerTargets ∧ context.isBuffer target = true := by
  unfold pointees
  split
  · next value kind => simp [kind, List.mem_filter]
  · next other =>
      simp only [List.not_mem_nil, false_iff, not_exists]
      rintro value ⟨kind, -⟩
      exact other value kind

variable {context : Context} {name : String}

theorem unmanaged_of_absent (absent : context.isBuffer name = false) : context.Unmanaged name := by
  intro buffer member named
  have known : context.isBuffer name = true :=
    (context.isBuffer_iff_mem name).mpr (mem_names_iff.mpr ⟨buffer, member, named⟩)
  exact absurd (absent.symm.trans known) Bool.false_ne_true

theorem managed_of_deployed
    (listed : name ∈ (context.locals.entries.filter (·.deploy)).map Buffer.name) :
    ¬ context.Unmanaged name := by
  intro unmanaged
  obtain ⟨buffer, chosen, named⟩ := List.mem_map.mp listed
  obtain ⟨member, deployed⟩ := List.mem_filter.mp chosen
  have static := (unmanaged buffer (List.mem_append_left _ member) named).1
  exact Bool.false_ne_true (static.symm.trans deployed)

/-! ### What tiling keeps -/

/-- A context in which everything is as in the origin, except for unmanaged names. -/
structure Preserved (origin context : Context) : Prop where
  kept : ∀ {name}, ¬ origin.Unmanaged name →
    (context.find? name).map Buffer.core = (origin.find? name).map Buffer.core
  apart : ∀ {name}, origin.Unmanaged name → context.Unmanaged name
  deployed : (context.locals.entries.filter (·.deploy)).map Buffer.name =
    (origin.locals.entries.filter (·.deploy)).map Buffer.name

/-- A context that tiling may have come to: managed names are as in the origin, and no identifier,
but perhaps that of one exempt logical name, is the name of a managed buffer. -/
structure Tended (origin : Context) (exempt : String) (context : Context) : Prop
    extends Preserved origin context where
  assigned : ∀ {logical identifier}, context.mangled.find? logical = some identifier →
    logical ≠ exempt → origin.Unmanaged identifier

namespace Preserved

variable {origin first second context : Context}

theorem refl (origin : Context) : Preserved origin origin := ⟨fun _ => rfl, id, rfl⟩

/-- A name that denotes no buffer is unmanaged from the start. -/
theorem unmanaged_of_absent (preserved : Preserved origin context) {name : String}
    (absent : context.isBuffer name = false) : origin.Unmanaged name := by
  by_contra managed
  have present : origin.isBuffer name = true := by
    by_contra missing
    exact managed (Context.unmanaged_of_absent (Bool.not_eq_true _ ▸ missing))
  rw [isBuffer_iff, ← Option.isSome_map (f := Buffer.core), ← preserved.kept managed,
    Option.isSome_map, ← isBuffer_iff, absent] at present
  exact Bool.false_ne_true present

/-! ### Pointers and references -/

/-- A name with pointers is managed. -/
theorem managed_of_pointsTo (preserved : Preserved origin context) {source target : String}
    (points : context.PointsTo source target) : ¬ origin.Unmanaged source := by
  intro unmanaged
  obtain ⟨value, kind, -⟩ := mem_pointees_iff.mp points
  obtain ⟨buffer, found, isStruct⟩ := Option.map_eq_some_iff.mp kind
  have plain := (preserved.apart unmanaged buffer (mem_of_find? found) (name_of_find? found)).2
  rw [Buffer.isStruct, isStruct] at plain
  exact Bool.noConfusion plain

theorem pointsTo (before : Preserved origin first) (after : Preserved origin second)
    {source target : String} (managed : ¬ origin.Unmanaged target)
    (points : first.PointsTo source target) : second.PointsTo source target := by
  have sourceManaged := before.managed_of_pointsTo points
  obtain ⟨value, kind, listed, -⟩ := mem_pointees_iff.mp points
  have cores := (before.kept sourceManaged).trans (after.kept sourceManaged).symm
  have kinds := congrArg (Option.map Buffer.kind) cores
  rw [Option.map_map, Option.map_map] at kinds
  refine mem_pointees_iff.mpr ⟨value, kinds.symm.trans kind, listed, ?_⟩
  by_contra absent
  exact managed (after.unmanaged_of_absent (Bool.not_eq_true _ ▸ absent))

/-- Managed names are reached by the same pointers. -/
theorem reaches (before : Preserved origin first) (after : Preserved origin second)
    {source target : String} (managed : ¬ origin.Unmanaged target)
    (path : ReflTransGen first.PointsTo source target) :
    ReflTransGen second.PointsTo source target ∧ ¬ origin.Unmanaged source := by
  induction path using ReflTransGen.head_induction_on with
  | refl => exact ⟨.refl, managed⟩
  | head points _ ih =>
      exact ⟨.head (before.pointsTo after ih.2 points) ih.1, before.managed_of_pointsTo points⟩

/-- The same managed names lead to the same references. -/
theorem referencesAmong_eq (preserved : Preserved origin context) {touched others : List String}
    (same : ∀ name, ¬ origin.Unmanaged name → (name ∈ touched ↔ name ∈ others)) :
    context.referencesAmong .unrolled touched = origin.referencesAmong .unrolled others := by
  rw [referencesAmong_eq_filter, referencesAmong_eq_filter, preserved.deployed]
  apply List.filter_congr
  intro name listed
  have managed := managed_of_deployed listed
  rw [Bool.eq_iff_iff, List.contains_iff_mem, List.contains_iff_mem,
    mem_spread_iff context (by rfl), mem_spread_iff origin (by rfl)]
  constructor
  · rintro ⟨source, member, path⟩
    obtain ⟨path, sourceManaged⟩ := preserved.reaches (refl origin) managed path
    exact ⟨source, (same source sourceManaged).mp member, path⟩
  · rintro ⟨source, member, path⟩
    obtain ⟨path, sourceManaged⟩ := (refl origin).reaches preserved managed path
    exact ⟨source, (same source sourceManaged).mpr member, path⟩

end Preserved

namespace Tended

variable {origin : Context} {exempt : String} {context second : Context}

theorem congr (tended : Tended origin exempt context) (same : SameCores context second)
    (names : second.mangled = context.mangled) : Tended origin exempt second where
  kept managed := (same.find?_eq _).symm.trans (tended.kept managed)
  apart unmanaged := same.unmanaged (tended.apart unmanaged)
  deployed := (SameCores.deployed_eq same.1).symm.trans tended.deployed
  assigned given := tended.assigned (names ▸ given)

theorem push (tended : Tended origin exempt context) {buffer : Buffer} (scope : Scope)
    (unmanaged : origin.Unmanaged buffer.name) (static : buffer.deploy = false)
    (plain : buffer.isStruct = false) : Tended origin exempt (context.push buffer scope) where
  kept {name} managed := by
    have different : buffer.name ≠ name := fun same => managed (same ▸ unmanaged)
    rw [find?_push_of_ne context different]
    exact tended.kept managed
  apart {name} others := by
    intro other member named
    rcases List.mem_cons.mp ((context.buffers_push_perm buffer scope).mem_iff.mp member) with
      rfl | listed
    · exact ⟨static, plain⟩
    · exact tended.apart others other listed named
  deployed := by
    cases scope with
    | locals =>
        rw [← tended.deployed, Context.push, BufferTable.push, List.filter_append,
          List.filter_cons_of_neg (by rw [static]; exact Bool.false_ne_true), List.filter_nil,
          List.append_nil]
    | globals => exact tended.deployed
  assigned given := tended.assigned (by cases scope <;> exact given)

theorem drop (tended : Tended origin exempt context) {name : String}
    (unmanaged : origin.Unmanaged name) : Tended origin exempt (context.drop name) where
  kept {other} managed := by
    have different : other ≠ name := fun same => managed (same ▸ unmanaged)
    rw [find?_drop_of_ne context different]
    exact tended.kept managed
  apart others buffer member := by
    apply tended.apart others buffer
    unfold Context.drop at member
    split at member
    · exact ((BufferTable.eraseIn_sublist name _).append_right _).subset member
    · exact ((BufferTable.eraseIn_sublist name _).append_left _).subset member
  deployed := by
    rw [← tended.deployed]
    unfold Context.drop
    split
    · congr 1
      apply BufferTable.filter_eraseIn
      intro buffer member named
      exact (tended.apart unmanaged buffer (List.mem_append_left _ member) named).1
    · rfl
  assigned given := by
    apply tended.assigned
    unfold Context.drop at given
    split at given <;> exact given

end Tended

/-- All steps of tiling keep what they have to. -/
theorem openFrame_tended (origin : Context) (exempt : String) :
    OpenFrame origin.Unmanaged (Tended origin exempt) where
  resting same tended := by
    refine tended.congr (SameCores.of_atRest_eq same) ?_
    exact (congrArg Context.mangled same).symm
  typed _ tended := tended.congr ⟨rfl, rfl⟩ rfl
  defined _ tended := tended.congr ⟨rfl, rfl⟩ rfl
  modified {context} name change keeps tended := by
    refine tended.congr (context.sameCores_modify name fun buffer => (keeps buffer).1) ?_
    unfold modify
    split <;> rfl
  pushed scope admitted static plain tended :=
    tended.push scope (admitted.elim id tended.toPreserved.unmanaged_of_absent) static plain
  dropped unmanaged tended := tended.drop unmanaged

namespace Tended

variable {origin : Context} {exempt : String} {context : Context}

/-! ### Identifiers -/

theorem mangle_of_unmanaged (tended : Tended origin exempt context) {logical : String}
    (unmanaged : origin.Unmanaged (context.mangle logical).1) :
    Tended origin exempt (context.mangle logical).2 := by
  cases given : context.mangled.find? logical with
  | some identifier =>
      rw [mangle_of_given given]
      exact tended
  | none =>
      rw [mangle_of_new given] at unmanaged ⊢
      refine ⟨⟨tended.kept, tended.apart, tended.deployed⟩, ?_⟩
      intro other identifier found others
      rw [Dict.find?_insert] at found
      split at found
      · exact Option.some.inj found ▸ unmanaged
      · exact tended.assigned found others

/-- An identifier that cannot be the logical name itself is unmanaged. -/
theorem unmanaged_mangle (tended : Tended origin exempt context) {logical : String} {char : Char}
    (member : char ∈ logical.toList) (unfit : isIdentifierChar char = false)
    (different : logical ≠ exempt) : origin.Unmanaged (context.mangle logical).1 := by
  cases given : context.mangled.find? logical with
  | some identifier =>
      rw [mangle_of_given given]
      exact tended.assigned given different
  | none =>
      rw [mangle_of_new given]
      apply tended.toPreserved.unmanaged_of_absent
      by_contra known
      exact freshIdentifier_ne member unfit
        (eq_of_isBuffer_freshIdentifier (Bool.not_eq_false _ ▸ known))

theorem mangle_exempt (tended : Tended origin exempt context) :
    Tended origin exempt (context.mangle exempt).2 := by
  cases given : context.mangled.find? exempt with
  | some identifier =>
      rw [mangle_of_given given]
      exact tended
  | none =>
      rw [mangle_of_new given]
      refine ⟨⟨tended.kept, tended.apart, tended.deployed⟩, ?_⟩
      intro other identifier found others
      rw [Dict.find?_insert_of_ne _ _ others.symm] at found
      exact tended.assigned found others

end Tended

end Context

end TensorLowering
