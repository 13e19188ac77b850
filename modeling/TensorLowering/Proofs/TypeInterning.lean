import Mathlib.Data.List.Induction
import Mathlib.Logic.Function.Basic
import TensorLowering.Proofs.ListedTypes

/-! # Interned types

A registry may look its descriptors up in two tables, one by descriptor and one by the name of a
struct, which are kept along with every request or rebuilt from the list. Both ways give the same
tables and the answers of a search (`TensorLowering.Registry.Indexed.request_of`), so that along any
run of requests a type stands for one descriptor and a struct name for one layout
(`TensorLowering.Registry.Indexed.interning_exact`).
-/

namespace TensorLowering

namespace Registry

variable {registry after : Registry} {name : String} {fields : List (String × TypeId)}
  {type : TypeId} {kind : TypeKind}

/-! ### Tables -/

/-- The types of descriptors and of struct names. -/
structure Tables where
  byKind : TypeKind → Option TypeId := fun _ => none
  byName : String → Option TypeId := fun _ => none

namespace Tables

/-- Enter a descriptor with its type. -/
def enter (tables : Tables) (kind : TypeKind) (type : TypeId) : Tables where
  byKind := Function.update tables.byKind kind (some type)
  byName :=
    match kind with
    | .struct name _ => Function.update tables.byName name (some type)
    | _ => tables.byName

/-- The tables of a list of descriptors, entered one after the other. -/
def ofKinds (kinds : List TypeKind) : Tables :=
  kinds.zipIdx.foldl (fun tables entry => tables.enter entry.1 ⟨entry.2⟩) {}

theorem ofKinds_concat (kinds : List TypeKind) (kind : TypeKind) :
    ofKinds (kinds ++ [kind]) = (ofKinds kinds).enter kind ⟨kinds.length⟩ := by
  simp [ofKinds, List.zipIdx_append]

theorem byKind_enter (tables : Tables) (kind other : TypeKind) (type : TypeId) :
    (tables.enter kind type).byKind other =
      if other = kind then some type else tables.byKind other :=
  Function.update_apply _ _ _ _

theorem byName_enter (tables : Tables) (kind : TypeKind) (type : TypeId) (name : String) :
    (tables.enter kind type).byName name =
      if isStructNamed name kind then some type else tables.byName name := by
  cases kind with
  | struct other fields => simp [enter, isStructNamed, Function.update_apply, eq_comm]
  | _ => rfl

/-- The tables find what a search in the list finds last. -/
theorem byKind_ofKinds (kinds : List TypeKind) (kind : TypeKind) :
    (ofKinds kinds).byKind kind = (lastIndex? (· = kind) kinds).map TypeId.mk := by
  induction kinds using List.reverseRecOn with
  | nil => rfl
  | append_singleton kinds last ih =>
      rw [ofKinds_concat, byKind_enter, ih, lastIndex?_append]
      by_cases same : kind = last
      · simp [same]
      · simp [same, Ne.symm same]

theorem byName_ofKinds (kinds : List TypeKind) (name : String) :
    (ofKinds kinds).byName name = (lastIndex? (isStructNamed name) kinds).map TypeId.mk := by
  induction kinds using List.reverseRecOn with
  | nil => rfl
  | append_singleton kinds last ih =>
      rw [ofKinds_concat, byName_enter, ih, lastIndex?_append]
      split <;> rfl

end Tables

/-- A registry with tables. -/
structure Indexed where
  registry : Registry
  tables : Tables

namespace Indexed

/-- The registry without types. -/
def new (pointerWidth : Nat) : Indexed := ⟨{ pointerWidth }, {}⟩

/-- Rebuild the tables from the list. -/
def reindex (index : Indexed) : Indexed := { index with tables := .ofKinds index.registry.kinds }

/-- The type of a descriptor, listed and entered if the tables do not have it. -/
def intern (index : Indexed) (kind : TypeKind) : TypeId × Indexed :=
  match index.tables.byKind kind with
  | some type => (type, index)
  | none =>
      let type : TypeId := ⟨index.registry.kinds.length⟩
      (type, {
        registry := { index.registry with kinds := index.registry.kinds ++ [kind] }
        tables := { index.tables with
          byKind := Function.update index.tables.byKind kind (some type) } })

/-- A struct type. The layout of a name that the tables have must be the same; a new name is entered
after the descriptor. -/
def struct (index : Indexed) (name : String) (fields : List (String × TypeId)) :
    Except Error TypeId × Indexed :=
  match index.tables.byName name with
  | some type =>
      if index.registry.kinds[type.index]? = some (.struct name fields) then (.ok type, index)
      else (.error (.layoutConflict name), index)
  | none =>
      let (type, next) := index.intern (.struct name fields)
      (.ok type, { next with tables := { next.tables with
        byName := Function.update next.tables.byName name (some type) } })

/-- Ask for a descriptor. -/
def request (index : Indexed) : TypeKind → Except Error TypeId × Indexed
  | .struct name fields => index.struct name fields
  | kind => (.ok (index.intern kind).1, (index.intern kind).2)

/-- A registry with its own tables. -/
def of (registry : Registry) : Indexed := ⟨registry, .ofKinds registry.kinds⟩

theorem of_concat (registry : Registry) (kind : TypeKind) :
    of { registry with kinds := registry.kinds ++ [kind] } =
      ⟨{ registry with kinds := registry.kinds ++ [kind] },
        (Tables.ofKinds registry.kinds).enter kind ⟨registry.kinds.length⟩⟩ := by
  rw [of, Tables.ofKinds_concat]

theorem intern_of (registry : Registry) (plain : ¬∃ name fields, kind = .struct name fields) :
    (of registry).intern kind = ((registry.intern kind).1, of (registry.intern kind).2) := by
  unfold intern Registry.intern
  rw [of, Tables.byKind_ofKinds]
  cases lastIndex? (· = kind) registry.kinds with
  | some index => rfl
  | none =>
      refine Prod.ext rfl ?_
      rw [of_concat]
      cases kind with
      | struct name fields => exact absurd ⟨name, fields, rfl⟩ plain
      | _ => rfl

/-- A name that no listed struct has is entered with its descriptor. -/
theorem struct_of_new (registry : Registry)
    (new : lastIndex? (isStructNamed name) registry.kinds = none) :
    (of registry).struct name fields = (.ok (registry.intern (.struct name fields)).1,
      of (registry.intern (.struct name fields)).2) := by
  have absent : lastIndex? (· = .struct name fields) registry.kinds = none := by
    rw [lastIndex?_eq_none_iff] at new ⊢
    intro listed member
    apply decide_eq_false
    intro same
    subst same
    exact absurd (new _ member) (by simp [isStructNamed])
  unfold struct intern Registry.intern
  rw [of, Tables.byName_ofKinds, new, Tables.byKind_ofKinds, absent]
  refine Prod.ext rfl ?_
  rw [of_concat]
  rfl

/-- **Tables do not change answers.** A request in a registry with its own tables gives what the
search in the list gives, and leaves the registry with its own tables. A failed request changes
nothing. -/
theorem request_of (registry : Registry) (kind : TypeKind) :
    (∀ type after, registry.request kind = .ok (type, after) →
      (of registry).request kind = (.ok type, of after)) ∧
    ∀ error, registry.request kind = .error error →
      (of registry).request kind = (.error error, of registry) := by
  by_cases named : ∃ name fields, kind = .struct name fields
  · obtain ⟨name, fields, rfl⟩ := named
    unfold Registry.request Registry.struct request
    dsimp only
    cases found : lastIndex? (isStructNamed name) registry.kinds with
    | none =>
        rw [struct_of_new registry found]
        refine ⟨fun type after made => ?_, fun error failed => by cases failed⟩
        rw [Except.ok.inj made]
    | some index =>
        have looked : (of registry).tables.byName name = some ⟨index⟩ := by
          rw [of, Tables.byName_ofKinds, found]
          rfl
        rw [struct, looked]
        by_cases same : registry.kinds[index]? = some (.struct name fields)
        · have listed : (of registry).registry.kinds[index]? = some (.struct name fields) := same
          dsimp only
          rw [if_pos same, if_pos listed]
          exact ⟨fun type after made => by cases made; rfl, fun error failed => by cases failed⟩
        · have differs : ¬(of registry).registry.kinds[index]? = some (.struct name fields) := same
          dsimp only
          rw [if_neg same, if_neg differs]
          exact ⟨fun type after made => (by cases made), fun error failed => by cases failed; rfl⟩
  · rw [request_eq_intern registry named]
    have answered : (of registry).request kind =
        (.ok ((of registry).intern kind).1, ((of registry).intern kind).2) := by
      cases kind with
      | struct name fields => exact absurd ⟨name, fields, rfl⟩ named
      | _ => rfl
    rw [answered, intern_of registry named]
    refine ⟨fun type after made => ?_, fun error failed => by cases failed⟩
    rw [Except.ok.inj made]

theorem request_of_iff (registry : Registry) (kind : TypeKind) :
    (∀ type after, registry.request kind = .ok (type, after) ↔
      ((of registry).request kind).1 = .ok type ∧
        ((of registry).request kind).2.registry = after) ∧
    ∀ error, registry.request kind = .error error ↔
      ((of registry).request kind).1 = .error error := by
  obtain ⟨succeeds, fails⟩ := request_of registry kind
  cases made : registry.request kind with
  | ok answer =>
      rw [succeeds answer.1 answer.2 made]
      simp [of, Prod.ext_iff]
  | error error =>
      rw [fails error made]
      simp

/-! ### Runs -/

/-- A step of a run: a request, or a rebuilding of the tables. -/
inductive Step where
  | request (kind : TypeKind)
  | reindex

/-- The registry after a step. -/
def step (index : Indexed) : Step → Indexed
  | .request kind => (index.request kind).2
  | .reindex => index.reindex

/-- The registry after a run from the registry without types. -/
def reached (pointerWidth : Nat) (steps : List Step) : Indexed :=
  steps.foldl step (new pointerWidth)

/-- A run has a successful request for a descriptor, which returned a type. -/
def Granted (pointerWidth : Nat) (steps : List Step) (kind : TypeKind) (type : TypeId) : Prop :=
  ∃ before after, steps = before ++ .request kind :: after ∧
    ((reached pointerWidth before).request kind).1 = .ok type

variable {pointerWidth : Nat} {steps : List Step}

theorem reached_concat (pointerWidth : Nat) (steps : List Step) (last : Step) :
    reached pointerWidth (steps ++ [last]) = (reached pointerWidth steps).step last := by
  rw [reached, List.foldl_append]
  rfl

theorem granted_concat_iff {last : Step} :
    Granted pointerWidth (steps ++ [last]) kind type ↔ Granted pointerWidth steps kind type ∨
      last = .request kind ∧ ((reached pointerWidth steps).request kind).1 = .ok type := by
  constructor
  · intro granted
    obtain ⟨before, after, split, answered⟩ := granted
    rcases List.eq_nil_or_concat after with rfl | ⟨rest, final, rfl⟩
    · obtain ⟨rfl, same⟩ := List.append_inj' split rfl
      exact .inr ⟨List.singleton_inj.mp same, answered⟩
    · rw [List.concat_eq_append, ← List.cons_append, ← List.append_assoc] at split
      exact .inl ⟨before, rest, (List.append_inj' split rfl).1, answered⟩
  · intro held
    rcases held with ⟨before, after, rfl, answered⟩ | ⟨rfl, answered⟩
    · exact ⟨before, after ++ [last], by simp, answered⟩
    · exact ⟨steps, [], rfl, answered⟩

/-- What a run keeps: the tables are those of the list, the types of earlier requests are listed and
nothing else is, and a struct name has one layout. -/
structure Kept (pointerWidth : Nat) (steps : List Step) : Prop where
  tables : reached pointerWidth steps = of (reached pointerWidth steps).registry
  lists : ∀ ⦃kind type⦄, Granted pointerWidth steps kind type →
    (reached pointerWidth steps).registry.Lists kind type
  granted : ∀ kind ∈ (reached pointerWidth steps).registry.kinds,
    ∃ type, Granted pointerWidth steps kind type
  layouts : (reached pointerWidth steps).registry.OneLayout
  count : (reached pointerWidth steps).registry.kinds.length ≤ steps.length

theorem kept_nil (pointerWidth : Nat) : Kept pointerWidth [] where
  tables := rfl
  lists := by
    intro kind type granted
    obtain ⟨before, after, split, -⟩ := granted
    simp at split
  granted := fun kind member => absurd member List.not_mem_nil
  layouts := fun _ _ _ member => absurd member List.not_mem_nil
  count := Nat.le_refl 0

/-- A step that leaves the registry alone and grants nothing keeps what there was. -/
theorem Kept.idle {last : Step} (kept : Kept pointerWidth steps)
    (same : reached pointerWidth (steps ++ [last]) = reached pointerWidth steps)
    (denied : ∀ kind type, last = .request kind →
      ((reached pointerWidth steps).request kind).1 ≠ .ok type) :
    Kept pointerWidth (steps ++ [last]) where
  tables := by rw [same]; exact kept.tables
  lists := by
    intro kind type granted
    rw [same]
    refine kept.lists ((granted_concat_iff.mp granted).resolve_right fun held => ?_)
    exact denied kind type held.1 held.2
  granted := by
    intro kind member
    rw [same] at member
    obtain ⟨type, granted⟩ := kept.granted kind member
    exact ⟨type, granted_concat_iff.mpr (.inl granted)⟩
  layouts := by rw [same]; exact kept.layouts
  count := by
    rw [same, List.length_append]
    exact Nat.le_add_right_of_le kept.count

/-- A successful request. -/
theorem Kept.request {after : Registry} (kept : Kept pointerWidth steps)
    (made : (reached pointerWidth steps).registry.request kind = .ok (type, after)) :
    Kept pointerWidth (steps ++ [.request kind]) := by
  have answered : (reached pointerWidth steps).request kind = (.ok type, of after) := by
    rw [kept.tables]
    exact (request_of _ kind).1 type after made
  have next : reached pointerWidth (steps ++ [.request kind]) = of after := by
    rw [reached_concat, step, answered]
  refine { tables := ?_, lists := ?_, granted := ?_, layouts := ?_, count := ?_ }
  · rw [next]
    rfl
  · intro other otherType granted
    rw [next]
    rcases granted_concat_iff.mp granted with granted | ⟨same, again⟩
    · exact listedIn_request made (kept.lists granted)
    · cases same
      rw [answered] at again
      cases again
      exact lists_request made
  · intro other member
    rw [next] at member
    have earlier : other ∈ (reached pointerWidth steps).registry.kinds ∨ other = kind := by
      rcases request_eq_ok made with rfl | ⟨rfl, -⟩
      · exact .inl member
      · exact (List.mem_append.mp member).imp_right List.mem_singleton.mp
    rcases earlier with earlier | rfl
    · obtain ⟨otherType, granted⟩ := kept.granted other earlier
      exact ⟨otherType, granted_concat_iff.mpr (.inl granted)⟩
    · exact ⟨type, granted_concat_iff.mpr (.inr ⟨rfl, by rw [answered]⟩)⟩
  · rw [next]
    exact kept.layouts.request made
  · rw [next, List.length_append]
    rcases request_eq_ok made with rfl | ⟨rfl, -⟩
    · exact Nat.le_add_right_of_le kept.count
    · change (_ ++ [kind]).length ≤ _
      rw [List.length_append]
      exact Nat.add_le_add_right kept.count 1

/-- Every run keeps this. -/
theorem kept (pointerWidth : Nat) (steps : List Step) : Kept pointerWidth steps := by
  induction steps using List.reverseRecOn with
  | nil => exact kept_nil pointerWidth
  | append_singleton steps last kept =>
      cases last with
      | reindex =>
          refine kept.idle ?_ fun kind type same => by cases same
          rw [reached_concat, kept.tables]
          rfl
      | request kind =>
          cases made : (reached pointerWidth steps).registry.request kind with
          | ok answer => exact kept.request made
          | error error =>
              have failed : (reached pointerWidth steps).request kind =
                  (.error error, reached pointerWidth steps) := by
                rw [kept.tables]
                exact (request_of _ kind).2 error made
              refine kept.idle ?_ fun other type same => ?_
              · rw [reached_concat, step, failed]
              · cases same
                rw [failed]
                exact fun answered => by cases answered

/-- The answers are those of a search in the list. -/
theorem Kept.request_iff (kept : Kept pointerWidth steps) (kind : TypeKind) :
    (∀ type after, (reached pointerWidth steps).registry.request kind = .ok (type, after) ↔
      ((reached pointerWidth steps).request kind).1 = .ok type ∧
        ((reached pointerWidth steps).request kind).2.registry = after) ∧
    ∀ error, (reached pointerWidth steps).registry.request kind = .error error ↔
      ((reached pointerWidth steps).request kind).1 = .error error := by
  have agree := request_of_iff (reached pointerWidth steps).registry kind
  rwa [← kept.tables] at agree

theorem Kept.mem_kinds_iff (kept : Kept pointerWidth steps) :
    kind ∈ (reached pointerWidth steps).registry.kinds ↔
      ∃ type, Granted pointerWidth steps kind type :=
  ⟨kept.granted kind, fun ⟨_, granted⟩ => List.mem_of_getElem? (kept.lists granted).getElem?⟩

theorem kinds_step (index : Registry) (last : Step) :
    index.kinds <+: ((of index).step last).registry.kinds := by
  cases last with
  | reindex => exact List.prefix_rfl
  | request kind =>
      cases made : index.request kind with
      | ok answer =>
          rw [step, (request_of index kind).1 _ _ made]
          exact kinds_request made
      | error error =>
          rw [step, (request_of index kind).2 _ made]
          exact List.prefix_rfl

/-- A run only adds descriptors at the end. -/
theorem kinds_reached (pointerWidth : Nat) (steps later : List Step) :
    (reached pointerWidth steps).registry.kinds <+:
      (reached pointerWidth (steps ++ later)).registry.kinds := by
  induction later using List.reverseRecOn with
  | nil => simp
  | append_singleton later last ih =>
      have grows := kinds_step (reached pointerWidth (steps ++ later)).registry last
      rw [← (kept pointerWidth (steps ++ later)).tables, ← reached_concat] at grows
      rw [← List.append_assoc]
      exact ih.trans grows

/-- **Interning is structural and only adds.** After any run of requests, with the tables rebuilt
anywhere: a granted type stands for the descriptor that was asked for, and its index is below the
number of steps. Two granted types are the same exactly if the descriptors are. No later step
changes what a type stands for. A request fails exactly if it gives a struct name another layout
than an earlier one, and then it changes nothing. Rebuilding the tables changes nothing, and the
answers are those of a search in the list. -/
theorem interning_exact (pointerWidth : Nat) (steps : List Step) :
    (∀ kind type, Granted pointerWidth steps kind type →
      (reached pointerWidth steps).registry.kind type = .ok kind ∧ type.index < steps.length) ∧
    (∀ kind other type otherType, Granted pointerWidth steps kind type →
      Granted pointerWidth steps other otherType → (type = otherType ↔ kind = other)) ∧
    (∀ later kind type, (reached pointerWidth steps).registry.kind type = .ok kind →
      (reached pointerWidth (steps ++ later)).registry.kind type = .ok kind) ∧
    (∀ kind error, ((reached pointerWidth steps).request kind).1 = .error error ↔
      ∃ name fields, kind = .struct name fields ∧ error = .layoutConflict name ∧
        ∃ other type, Granted pointerWidth steps (.struct name other) type ∧ other ≠ fields) ∧
    (∀ kind error, ((reached pointerWidth steps).request kind).1 = .error error →
      ((reached pointerWidth steps).request kind).2 = reached pointerWidth steps) ∧
    (reached pointerWidth steps).reindex = reached pointerWidth steps ∧
    ∀ kind, (∀ type after,
      (reached pointerWidth steps).registry.request kind = .ok (type, after) ↔
        ((reached pointerWidth steps).request kind).1 = .ok type ∧
          ((reached pointerWidth steps).request kind).2.registry = after) ∧
      ∀ error, (reached pointerWidth steps).registry.request kind = .error error ↔
        ((reached pointerWidth steps).request kind).1 = .error error := by
  have kept := kept pointerWidth steps
  refine ⟨fun kind type granted => ?_, fun kind other type otherType granted others => ?_,
    fun later kind type listed => ?_, fun kind error => ?_, fun kind error failed => ?_, ?_,
    kept.request_iff⟩
  · have listed := (kept.lists granted).getElem?
    exact ⟨kind_eq_ok_iff.mpr listed,
      Nat.lt_of_lt_of_le (List.getElem?_eq_some_iff.mp listed).1 kept.count⟩
  · exact (kept.lists granted).type_eq_iff (kept.lists others)
  · rw [kind_eq_ok_iff] at listed ⊢
    obtain ⟨rest, whole⟩ := kinds_reached pointerWidth steps later
    rw [← whole]
    exact (List.getElem?_append_left (List.getElem?_eq_some_iff.mp listed).1).trans listed
  · rw [← (kept.request_iff kind).2, kept.layouts.request_eq_error_iff]
    simp only [kept.mem_kinds_iff, exists_and_right]
  · have unchanged := (request_of _ kind).2 error (((kept.request_iff kind).2 error).mpr failed)
    rw [← kept.tables] at unchanged
    rw [unchanged]
  · rw [kept.tables]
    rfl

/-- Bytes, a struct of a byte, a pointer to it after the tables were rebuilt, and bytes again. -/
def pairSteps : List Step :=
  [.request (.int 8 true), .request (.struct "pair_t" [("a", ⟨0⟩)]), .reindex,
    .request (.pointer ⟨1⟩), .request (.int 8 true)]

/-- Both requests for bytes give the first type, and the struct is the second one for good. A pair
with its field under another name is refused. -/
theorem interning_exact_pairSteps :
    Granted 32 pairSteps (.int 8 true) ⟨0⟩ ∧
    Granted 32 pairSteps (.struct "pair_t" [("a", ⟨0⟩)]) ⟨1⟩ ∧
    (∀ later, (reached 32 (pairSteps ++ later)).registry.kind ⟨1⟩ =
      .ok (.struct "pair_t" [("a", ⟨0⟩)])) ∧
    ((reached 32 pairSteps).request (.struct "pair_t" [("b", ⟨0⟩)])).1 =
      .error (.layoutConflict "pair_t") ∧
    ((reached 32 pairSteps).request (.struct "pair_t" [("b", ⟨0⟩)])).2 = reached 32 pairSteps := by
  have bytes : Granted 32 pairSteps (.int 8 true) ⟨0⟩ :=
    ⟨[.request (.int 8 true), .request (.struct "pair_t" [("a", ⟨0⟩)]), .reindex,
      .request (.pointer ⟨1⟩)], [], rfl, rfl⟩
  have pair : Granted 32 pairSteps (.struct "pair_t" [("a", ⟨0⟩)]) ⟨1⟩ :=
    ⟨[.request (.int 8 true)], _, rfl, rfl⟩
  obtain ⟨stands, -, stays, fails, unchanged, -⟩ := interning_exact 32 pairSteps
  have conflict := (fails (.struct "pair_t" [("b", ⟨0⟩)]) (.layoutConflict "pair_t")).mpr
    ⟨"pair_t", [("b", ⟨0⟩)], rfl, rfl, [("a", ⟨0⟩)], ⟨1⟩, pair, by simp⟩
  exact ⟨bytes, pair, fun later => stays later _ _ (stands _ _ pair).1, conflict,
    unchanged _ _ conflict⟩

end Indexed

end Registry

end TensorLowering
