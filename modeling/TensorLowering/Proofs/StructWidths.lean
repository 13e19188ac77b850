import Mathlib.Algebra.GroupWithZero.Nat
import Mathlib.Algebra.Order.BigOperators.Group.List
import Mathlib.Data.List.Perm.Subperm
import Mathlib.Logic.Relation
import Mathlib.Order.Bounds.Defs
import TensorLowering.Document.Types
import TensorLowering.Proofs.Decoding
import TensorLowering.Proofs.ListedTypes

/-! # Widths of structs

A type is a tree: a struct branches into its fields, and every other type is a leaf with a width of
its own. Where no struct holds itself, the tree is no deeper than the registry is long
(`TensorLowering.Registry.Grounded.nestsWithin`), and adding up widths field by field, with a check
after each, is the same as checking the sum of all leaves once
(`TensorLowering.Registry.width_exact`). The leaves of a registry that was read from a document are
words (`TensorLowering.Registry.wordSized_of_decode`).
-/

namespace TensorLowering

open Relation

/-- The types of the fields of a struct; other types have no fields. -/
def TypeKind.fieldTypes : TypeKind → List TypeId
  | .struct _ fields => fields.map Prod.snd
  | _ => []

namespace Registry

/-- A struct has a field of a type. -/
def HasField (registry : Registry) (whole part : TypeId) : Prop :=
  ∃ kind, registry.kind whole = .ok kind ∧ part ∈ kind.fieldTypes

/-- Following fields from a type meets listed types only, and none of them again inside itself. -/
structure Grounded (registry : Registry) (type : TypeId) : Prop where
  listed : ∀ part, ReflTransGen registry.HasField type part → ∃ kind, registry.kind part = .ok kind
  acyclic : ∀ part, ReflTransGen registry.HasField type part →
    ¬ TransGen registry.HasField part part

/-- The width of a type that has no fields. -/
def leafWidth? (registry : Registry) : TypeKind → Option Nat
  | .void => some 0
  | .int width _ => some width
  | .float width _ _ => some width
  | .pointer _ => some registry.pointerWidth
  | .future _ => some registry.pointerWidth
  | .struct _ _ => none

/-- The widths of all leaves fit in a word of 32 bits. -/
def WordSized (registry : Registry) : Prop :=
  ∀ kind ∈ registry.kinds, ∀ width ∈ registry.leafWidth? kind, width < 2 ^ 32

/-- The widths of the leaves below a list of types, in order and once for every way to a leaf. -/
inductive LeafWidths (registry : Registry) : List TypeId → List Nat → Prop
  | nil : LeafWidths registry [] []
  | leaf {type : TypeId} {types : List TypeId} {kind : TypeKind} {width : Nat} {widths : List Nat}
      (listed : registry.kind type = .ok kind) (plain : registry.leafWidth? kind = some width)
      (others : LeafWidths registry types widths) :
      LeafWidths registry (type :: types) (width :: widths)
  | struct {type : TypeId} {types : List TypeId} {name : String} {fields : List (String × TypeId)}
      {inner widths : List Nat} (listed : registry.kind type = .ok (.struct name fields))
      (inside : LeafWidths registry (fields.map Prod.snd) inner)
      (others : LeafWidths registry types widths) :
      LeafWidths registry (type :: types) (inner ++ widths)

/-- Fields of a type lead to a struct of a name whose leaves together are too wide. -/
def TooWide (registry : Registry) (type : TypeId) (name : String) : Prop :=
  ∃ part fields widths, ReflTransGen registry.HasField type part ∧
    registry.kind part = .ok (.struct name fields) ∧ registry.LeafWidths [part] widths ∧
    2 ^ 32 ≤ widths.sum

variable {registry : Registry} {type part : TypeId} {types : List TypeId} {kind : TypeKind}
  {name : String} {fields : List (String × TypeId)} {widths : List Nat} {bound total : Nat}

/-! ### The depth of a type -/

theorem Grounded.field (grounded : registry.Grounded type) (holds : registry.HasField type part) :
    registry.Grounded part where
  listed := fun inner path => grounded.listed inner (.head holds path)
  acyclic := fun inner path => grounded.acyclic inner (.head holds path)

/-- A type is listed, and so are the types of its fields, up to some depth where there are none. -/
def NestsWithin (registry : Registry) : (bound : Nat) → TypeId → Prop
  | 0, _ => False
  | bound + 1, type => ∃ kind, registry.kind type = .ok kind ∧
      ∀ part ∈ kind.fieldTypes, registry.NestsWithin bound part

/-- Along a path of fields no type comes twice, so no path is longer than the registry. -/
theorem Grounded.nestsWithin_of_path (grounded : registry.Grounded type) {path : List TypeId}
    (distinct : path.Nodup) (listed : ∀ outer ∈ path, outer.index < registry.kinds.length)
    (above : ∀ outer ∈ path, TransGen registry.HasField outer type)
    (enough : registry.kinds.length < path.length + bound) : registry.NestsWithin bound type := by
  induction bound generalizing type path with
  | zero =>
      have inside : path ⊆ (List.range registry.kinds.length).map TypeId.mk := fun outer member =>
        List.mem_map.mpr ⟨outer.index, List.mem_range.mpr (listed outer member), rfl⟩
      have short := (distinct.subperm inside).length_le
      rw [List.length_map, List.length_range] at short
      omega
  | succ bound ih =>
      obtain ⟨kind, isListed⟩ := grounded.listed type .refl
      refine ⟨kind, isListed, fun part member => ?_⟩
      have holds : registry.HasField type part := ⟨kind, isListed, member⟩
      have fresh : type ∉ path := fun again => grounded.acyclic type .refl (above type again)
      have index := (List.getElem?_eq_some_iff.mp (kind_eq_ok_iff.mp isListed)).1
      refine ih (grounded.field holds) (List.nodup_cons.mpr ⟨fresh, distinct⟩)
        (List.forall_mem_cons.mpr ⟨index, listed⟩) ?_ ?_
      · exact List.forall_mem_cons.mpr
          ⟨.single holds, fun outer member => (above outer member).tail holds⟩
      · rw [List.length_cons]
        omega

theorem Grounded.nestsWithin (grounded : registry.Grounded type) :
    registry.NestsWithin (registry.kinds.length + 1) type :=
  grounded.nestsWithin_of_path List.nodup_nil (List.forall_mem_nil _) (List.forall_mem_nil _)
    (by simp)

/-! ### The leaves of a type -/

theorem LeafWidths.unique {others : List Nat} (first : registry.LeafWidths types widths)
    (second : registry.LeafWidths types others) : widths = others := by
  induction first generalizing others with
  | nil =>
      cases second
      rfl
  | leaf listed plain _ ih =>
      cases second with
      | leaf again same rest =>
          cases listed.symm.trans again
          cases plain.symm.trans same
          rw [ih rest]
      | struct again =>
          cases listed.symm.trans again
          cases plain
  | struct listed _ _ ihInside ih =>
      cases second with
      | leaf again same =>
          cases listed.symm.trans again
          cases same
      | struct again inside rest =>
          cases listed.symm.trans again
          rw [ihInside inside, ih rest]

/-- The leaves of a struct are those of its fields. -/
theorem LeafWidths.whole (inside : registry.LeafWidths (fields.map Prod.snd) widths)
    (listed : registry.kind type = .ok (.struct name fields)) :
    registry.LeafWidths [type] widths := by
  have leaves := LeafWidths.struct listed inside .nil
  rwa [List.append_nil] at leaves

/-- The leaves of the first type come first. -/
theorem LeafWidths.split (leaves : registry.LeafWidths (type :: types) widths) :
    ∃ first rest, widths = first ++ rest ∧ registry.LeafWidths [type] first ∧
      registry.LeafWidths types rest := by
  cases leaves with
  | leaf listed plain others => exact ⟨[_], _, rfl, .leaf listed plain .nil, others⟩
  | struct listed inside others => exact ⟨_, _, rfl, inside.whole listed, others⟩

/-- Types that nest within a bound have leaves. -/
theorem exists_leafWidths (nests : ∀ type ∈ types, registry.NestsWithin bound type) :
    ∃ widths, registry.LeafWidths types widths := by
  induction bound generalizing types with
  | zero =>
      cases types with
      | nil => exact ⟨[], .nil⟩
      | cons type types => exact (nests type List.mem_cons_self).elim
  | succ bound ihBound =>
      induction types with
      | nil => exact ⟨[], .nil⟩
      | cons type types ih =>
          obtain ⟨⟨kind, listed, inner⟩, nestsLater⟩ := List.forall_mem_cons.mp nests
          obtain ⟨widths, others⟩ := ih nestsLater
          cases plain : registry.leafWidth? kind with
          | some width => exact ⟨width :: widths, .leaf listed plain others⟩
          | none =>
              cases kind with
              | struct name fields =>
                  obtain ⟨innerWidths, inside⟩ := ihBound inner
                  exact ⟨innerWidths ++ widths, .struct listed inside others⟩
              | _ => cases plain

/-! ### Adding up widths -/

/-- Add the width of a type to a total of a struct, if the sum stays below the limit. -/
def addWidth (name : String) (widthOf : TypeId → Except Error Nat) (total : Nat) (type : TypeId) :
    Except Error Nat := do
  let sum := total + (← widthOf type)
  if sum < widthLimit then return sum else throw (.malformedType (.structWidth name))

theorem widthWithin_leaf {width : Nat} (listed : registry.kind type = .ok kind)
    (plain : registry.leafWidth? kind = some width) :
    registry.widthWithin (bound + 1) type = .ok width := by
  rw [widthWithin, listed]
  cases kind with
  | struct name fields => cases plain
  | _ => cases plain; rfl

theorem widthWithin_struct (listed : registry.kind type = .ok (.struct name fields)) :
    registry.widthWithin (bound + 1) type =
      (fields.map Prod.snd).foldlM (addWidth name (registry.widthWithin bound)) 0 := by
  rw [widthWithin, listed, List.foldlM_map]
  rfl

/-- An exact width is returned below the limit; from the limit on the width of a struct is
refused. -/
def Measured (refused : String → Prop) (result : Except Error Nat) (exact : Nat) : Prop :=
  (exact < widthLimit ∧ result = .ok exact) ∨
    (widthLimit ≤ exact ∧ ∃ name, refused name ∧
      result = .error (.malformedType (.structWidth name)))

theorem Measured.imp {refused others : String → Prop} {result : Except Error Nat} {exact : Nat}
    (measured : Measured refused result exact) (included : ∀ name, refused name → others name) :
    Measured others result exact :=
  measured.imp_right fun ⟨wide, name, isRefused, failed⟩ =>
    ⟨wide, name, included name isRefused, failed⟩

section Sums

variable {refused : String → Prop} {widthOf : TypeId → Except Error Nat}

/-- Checking a sum after adding a type is the same as checking it after adding the others too. -/
theorem measured_cons {width rest : Nat} (head : Measured refused (widthOf type) width)
    (own : widthLimit ≤ total + (width + rest) → refused name)
    (tail : total + width < widthLimit → Measured refused
      (types.foldlM (addWidth name widthOf) (total + width)) (total + width + rest)) :
    Measured refused ((type :: types).foldlM (addWidth name widthOf) total)
      (total + (width + rest)) := by
  rw [List.foldlM_cons]
  rcases head with ⟨-, measured⟩ | ⟨wide, culprit, isRefused, failed⟩
  · have added : addWidth name widthOf total type =
        if total + width < widthLimit then .ok (total + width)
        else .error (.malformedType (.structWidth name)) := by
      rw [addWidth, measured]
      rfl
    rw [added]
    by_cases fits : total + width < widthLimit
    · rw [if_pos fits, ← Nat.add_assoc]
      exact tail fits
    · have wide : widthLimit ≤ total + (width + rest) := by omega
      rw [if_neg fits]
      exact .inr ⟨wide, name, own wide, rfl⟩
  · rw [addWidth, failed]
    exact .inr ⟨by omega, culprit, isRefused, rfl⟩

/-- Adding up the widths of types, with a check after each, measures the sum of their leaves. -/
theorem LeafWidths.measured_sum (leaves : registry.LeafWidths types widths)
    (each : ∀ type ∈ types, ∀ inner, registry.LeafWidths [type] inner →
      Measured refused (widthOf type) inner.sum)
    (own : widthLimit ≤ total + widths.sum → refused name) (below : total < widthLimit) :
    Measured refused (types.foldlM (addWidth name widthOf) total) (total + widths.sum) := by
  induction types generalizing widths total with
  | nil =>
      cases leaves
      exact .inl ⟨below, rfl⟩
  | cons type types ih =>
      obtain ⟨first, rest, rfl, head, tail⟩ := leaves.split
      obtain ⟨headEach, tailEach⟩ := List.forall_mem_cons.mp each
      rw [List.sum_append] at own ⊢
      refine measured_cons (headEach first head) own fun fits => ih tail tailEach ?_ fits
      rwa [Nat.add_assoc]

end Sums

theorem TooWide.head (holds : registry.HasField type part) (wide : registry.TooWide part name) :
    registry.TooWide type name := by
  obtain ⟨inner, fields, widths, path, listed, leaves, sum⟩ := wide
  exact ⟨inner, fields, widths, .head holds path, listed, leaves, sum⟩

/-- A type that nests within a bound is measured by its leaves. -/
theorem NestsWithin.measured (nests : registry.NestsWithin bound type)
    (words : registry.WordSized) (leaves : registry.LeafWidths [type] widths) :
    Measured (registry.TooWide type) (registry.widthWithin bound type) widths.sum := by
  induction bound generalizing type widths with
  | zero => exact nests.elim
  | succ bound ih =>
      obtain ⟨kind, listed, inner⟩ := nests
      cases leaves with
      | leaf again plain others =>
          cases others
          have small := words _ (List.mem_of_getElem? (kind_eq_ok_iff.mp again)) _ plain
          rw [List.sum_singleton, widthWithin_leaf again plain]
          exact .inl ⟨small, rfl⟩
      | @struct _ _ name fields _ _ again inside others =>
          cases others
          cases listed.symm.trans again
          rw [List.append_nil, widthWithin_struct listed, ← Nat.zero_add (List.sum _)]
          -- A field is refused for a struct inside it, and the sum of the fields for this struct.
          refine inside.measured_sum (fun part member widths leaves => ?_) (fun wide => ?_)
            (by decide)
          · have holds : registry.HasField type part := ⟨_, listed, member⟩
            exact (ih (inner part member) leaves).imp fun _ => TooWide.head holds
          · rw [Nat.zero_add] at wide
            exact ⟨type, fields, _, .refl, listed, inside.whole listed, wide⟩

/-! ### Registries in order -/

/-- Where the types of fields are listed before their structs, every listed type is grounded. -/
theorem grounded_of_ordered
    (ordered : ∀ entry ∈ registry.kinds.zipIdx, ∀ part ∈ entry.1.fieldTypes, part.index < entry.2)
    (listed : type.index < registry.kinds.length) : registry.Grounded type := by
  have before : ∀ {whole part}, registry.HasField whole part → part.index < whole.index := by
    intro whole part holds
    obtain ⟨kind, isListed, member⟩ := holds
    exact ordered (kind, whole.index)
      (List.mk_mem_zipIdx_iff_getElem?.mpr (kind_eq_ok_iff.mp isListed)) part member
  refine ⟨fun part path => ?_, fun part _ cycle => ?_⟩
  · have inside : part.index < registry.kinds.length := by
      induction path with
      | refl => exact listed
      | tail _ holds ih => exact Nat.lt_trans (before holds) ih
    exact ⟨_, kind_eq_ok_iff.mpr (List.getElem?_eq_getElem inside)⟩
  · have smaller : ∀ {whole}, TransGen registry.HasField whole part → part.index < whole.index := by
      intro whole path
      induction path using TransGen.head_induction_on with
      | single holds => exact before holds
      | head holds _ ih => exact Nat.lt_trans ih (before holds)
    exact Nat.lt_irrefl _ (smaller cycle)

/-! ### Registries that are read -/

section Documents

open Json Decoder

/-- The leaf widths of a descriptor that was read are words if pointers are. -/
theorem leafWidth_lt_of_decode {registry : Registry} {kind : TypeKind} {depth : Nat}
    {json : Json} (pointer : registry.pointerWidth < 2 ^ 32)
    (read : TypeKind.decode depth json = .ok kind) :
    ∀ width ∈ registry.leafWidth? kind, width < 2 ^ 32 := by
  intro width leaf
  have word : ∀ {fields : Fields} {bits : Nat},
      fields.required "width" nat32 = .ok bits → bits < 2 ^ 32 := by
    intro fields bits readBits
    obtain ⟨source, readSource⟩ := Fields.exists_of_required readBits
    exact lt_of_natBelow readSource
  rcases exists_of_variantWith read with
    ⟨tag, found⟩ | ⟨tag, decoder, inner, content, -, -, found, readContent⟩
  · obtain ⟨-, rfl⟩ := Prod.mk.inj (List.mem_singleton.mp (Dict.mem_of_search found))
    cases leaf
    decide
  · have member := Dict.mem_of_search found
    simp only [List.mem_cons, Prod.mk.injEq, List.not_mem_nil, or_false] at member
    rcases member with ⟨-, rfl⟩ | ⟨-, rfl⟩ | ⟨-, rfl⟩ | ⟨-, rfl⟩ | ⟨-, rfl⟩
    · obtain ⟨fields, made⟩ := exists_fields_of_record readContent
      simp only [bind_eq_ok_iff, return_eq_ok_iff] at made
      obtain ⟨bits, readBits, signed, -, rfl⟩ := made
      cases leaf
      exact word readBits
    · obtain ⟨fields, made⟩ := exists_fields_of_record readContent
      simp only [bind_eq_ok_iff, return_eq_ok_iff] at made
      obtain ⟨bits, readBits, mantissa, -, exponent, -, rfl⟩ := made
      cases leaf
      exact word readBits
    · obtain ⟨pointee, -, made⟩ := bind_eq_ok_iff.mp readContent
      cases made
      cases leaf
      exact pointer
    · obtain ⟨pointee, -, made⟩ := bind_eq_ok_iff.mp readContent
      cases made
      cases leaf
      exact pointer
    · obtain ⟨fields, made⟩ := exists_fields_of_record readContent
      simp only [bind_eq_ok_iff, return_eq_ok_iff] at made
      obtain ⟨name, -, types, -, rfl⟩ := made
      cases leaf

/-- The leaf widths of a registry that was read are words. -/
theorem wordSized_of_decode {registry : Registry} {depth : Nat} {json : Json}
    (read : Registry.decode depth json = .ok registry) : registry.WordSized := by
  obtain ⟨fields, made⟩ := exists_fields_of_record read
  simp only [bind_eq_ok_iff, return_eq_ok_iff] at made
  obtain ⟨kinds, readKinds, pointerWidth, readPointer, rfl⟩ := made
  obtain ⟨source, readSource⟩ := Fields.exists_of_optional (.ofNat 32) rfl readPointer
  intro kind member
  unfold Fields.optional at readKinds
  split at readKinds
  · obtain ⟨inner, item, -, readItem⟩ := exists_of_list readKinds kind member
    exact leafWidth_lt_of_decode (lt_of_natBelow readSource) readItem
  · cases readKinds
    exact absurd member List.not_mem_nil

end Documents

/-! ### Widths and sizes -/

theorem sizeBytes_eq (registry : Registry) (type : TypeId) :
    registry.sizeBytes type = (registry.width type).map fun bits => (bits + 7) / 8 := by
  rw [sizeBytes]
  cases registry.width type <;> rfl

/-- **Widths of structs are exact or refused.** Where following fields from a type meets no cycle
and no unlisted type, the type has one list of leaves. Their widths together are the width of the
type if they stay below the limit, and its size is the least number of bytes with as many bits; from
the limit on both are refused, with the name of a struct on the way that is too wide itself. -/
theorem width_exact (registry : Registry) (type : TypeId) (words : registry.WordSized)
    (grounded : registry.Grounded type) :
    ∃ widths, (∀ other, registry.LeafWidths [type] other ↔ other = widths) ∧
      (widths.sum < 2 ^ 32 → registry.width type = .ok widths.sum ∧
        ∃ bytes, registry.sizeBytes type = .ok bytes ∧
          IsLeast {count | widths.sum ≤ 8 * count} bytes) ∧
      (2 ^ 32 ≤ widths.sum → ∃ name, registry.TooWide type name ∧
        registry.width type = .error (.malformedType (.structWidth name)) ∧
        registry.sizeBytes type = .error (.malformedType (.structWidth name))) := by
  have nests := grounded.nestsWithin
  obtain ⟨widths, leaves⟩ := exists_leafWidths (List.forall_mem_singleton.mpr nests)
  have measured : Measured (registry.TooWide type) (registry.width type) widths.sum :=
    nests.measured words leaves
  refine ⟨widths, fun other => ⟨fun again => again.unique leaves, fun same => same ▸ leaves⟩,
    fun small => ?_, fun wide => ?_⟩
  · obtain ⟨-, found⟩ := measured.resolve_right fun held => Nat.not_lt_of_le held.1 small
    have size : registry.sizeBytes type = .ok ((widths.sum + 7) / 8) := by
      rw [sizeBytes_eq, found]
      rfl
    have enough : widths.sum ≤ 8 * ((widths.sum + 7) / 8) := by omega
    have least : ∀ count, widths.sum ≤ 8 * count → (widths.sum + 7) / 8 ≤ count := by omega
    exact ⟨found, _, size, enough, least⟩
  · obtain ⟨-, name, tooWide, failed⟩ :=
      measured.resolve_left fun held => Nat.not_lt_of_le wide held.1
    refine ⟨name, tooWide, failed, ?_⟩
    rw [sizeBytes_eq, failed]
    rfl

/-- Halves of a word: `most_t` is one bit narrower than `whole_t`, which is just too wide. -/
def halvesRegistry : Registry where
  kinds := [.float 2147483648 23 8, .struct "half_t" [("bits", ⟨0⟩)], .float 2147483647 23 8,
    .struct "most_t" [("low", ⟨1⟩), ("high", ⟨2⟩)],
    .struct "whole_t" [("low", ⟨1⟩), ("high", ⟨1⟩)], .struct "outer_t" [("inner", ⟨4⟩)]]

/-- The widest struct is measured, and a struct around one that is one bit wider is refused. -/
theorem width_exact_halvesRegistry :
    halvesRegistry.WordSized ∧ halvesRegistry.Grounded ⟨3⟩ ∧ halvesRegistry.Grounded ⟨5⟩ ∧
    halvesRegistry.width ⟨3⟩ = .ok 4294967295 ∧
    (∃ bytes, halvesRegistry.sizeBytes ⟨3⟩ = .ok bytes ∧
      IsLeast {count | 4294967295 ≤ 8 * count} bytes) ∧
    ∃ name, halvesRegistry.TooWide ⟨5⟩ name ∧
      halvesRegistry.width ⟨5⟩ = .error (.malformedType (.structWidth name)) := by
  have words : halvesRegistry.WordSized := by
    unfold WordSized
    decide
  have most : halvesRegistry.Grounded ⟨3⟩ := grounded_of_ordered (by decide) (by decide)
  have outer : halvesRegistry.Grounded ⟨5⟩ := grounded_of_ordered (by decide) (by decide)
  have low : halvesRegistry.LeafWidths [⟨0⟩] [2147483648] := .leaf rfl rfl .nil
  have high : halvesRegistry.LeafWidths [⟨2⟩] [2147483647] := .leaf rfl rfl .nil
  have half : halvesRegistry.kind ⟨1⟩ = .ok (.struct "half_t" [("bits", ⟨0⟩)]) := rfl
  have mostLeaves : halvesRegistry.LeafWidths [⟨3⟩] [2147483648, 2147483647] :=
    (LeafWidths.struct half low high).whole rfl
  have wholeLeaves : halvesRegistry.LeafWidths [⟨4⟩] [2147483648, 2147483648] :=
    (LeafWidths.struct half low (low.whole half)).whole rfl
  have outerLeaves : halvesRegistry.LeafWidths [⟨5⟩] [2147483648, 2147483648] :=
    wholeLeaves.whole rfl
  obtain ⟨widths, onlyMost, small, -⟩ := width_exact halvesRegistry ⟨3⟩ words most
  obtain ⟨others, onlyOuter, -, wide⟩ := width_exact halvesRegistry ⟨5⟩ words outer
  cases (onlyMost _).mp mostLeaves
  cases (onlyOuter _).mp outerLeaves
  obtain ⟨width, bytes⟩ := small (by decide)
  obtain ⟨name, tooWide, failed, -⟩ := wide (by decide)
  exact ⟨words, most, outer, width, bytes, name, tooWide, failed⟩

end Registry

end TensorLowering
