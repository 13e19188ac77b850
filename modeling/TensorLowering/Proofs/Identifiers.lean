import Mathlib.Data.List.Nodup
import Mathlib.Data.List.Perm.Subperm
import TensorLowering.Context.Naming
import TensorLowering.Proofs.Buffers
import TensorLowering.Proofs.Dictionaries

/-! # Fresh identifiers

A logical name that has no identifier gets the first free candidate. The candidates differ from
each other (`TensorLowering.Context.candidate_injective`), so one of them is free, and it is found
(`TensorLowering.Context.isTaken_freshIdentifier`): a new identifier is given to no other logical
name, and another buffer has it only if it is the logical name itself.
-/

namespace TensorLowering

namespace Context

theorem candidate_injective (base : String) : Function.Injective (candidate base) := by
  intro first second same
  have lists := congrArg String.toList same
  cases first with
  | zero =>
      cases second with
      | zero => rfl
      | succ number => simp [candidate] at lists
  | succ number =>
      cases second with
      | zero => simp [candidate] at lists
      | succ other =>
          simp only [candidate, String.toList_append, List.append_assoc,
            List.append_cancel_left_eq] at lists
          have digits := congrArg (Nat.ofDigitChars 10 · 0) lists
          simpa using digits

/-- The search stops at a free number, or at its limit with all numbers before it taken. -/
theorem freeNumber_cases (taken : Nat → Bool) (bound number : Nat) :
    taken (freeNumber taken bound number) = false ∨
      freeNumber taken bound number = number + bound ∧
        ∀ other, number ≤ other → other < number + bound → taken other = true := by
  induction bound generalizing number with
  | zero => exact .inr ⟨rfl, fun other least less => absurd less (by omega)⟩
  | succ bound ih =>
      rw [freeNumber]
      cases here : taken number with
      | false => exact .inl here
      | true =>
          rw [if_pos rfl]
          refine (ih (number + 1)).imp_right fun ⟨stopped, allTaken⟩ => ⟨by omega, ?_⟩
          intro other least less
          rcases Nat.eq_or_lt_of_le least with rfl | later
          · exact here
          · exact allTaken other later (by omega)

/-- The search passes over taken numbers only. -/
theorem taken_of_lt_freeNumber {taken : Nat → Bool} {bound number other : Nat}
    (least : number ≤ other) (less : other < freeNumber taken bound number) :
    taken other = true := by
  induction bound generalizing number with
  | zero =>
      rw [freeNumber] at less
      omega
  | succ bound ih =>
      rw [freeNumber] at less
      by_cases here : taken number = true
      · rw [if_pos here] at less
        rcases Nat.eq_or_lt_of_le least with rfl | later
        · exact here
        · exact ih later less
      · rw [if_neg here] at less
        omega

/-- An identifier that cannot be given is among the identifiers and the names in use. -/
theorem mem_of_isTaken {context : Context} {name identifier : String}
    (taken : context.isTaken name identifier = true) :
    identifier ∈ context.mangled.values ++ context.names := by
  rw [isTaken, Bool.or_eq_true, Bool.and_eq_true, List.contains_iff_mem, isBuffer_iff_mem] at taken
  exact List.mem_append.mpr (taken.imp_right And.left)

/-- **A new identifier is free.** -/
theorem isTaken_freshIdentifier (context : Context) (name : String) :
    context.isTaken name (context.freshIdentifier name) = false := by
  rw [← Bool.not_eq_true]
  intro taken
  let candidates := candidate (context.namePrefix ++ sanitize name)
  let bound := context.mangled.values.length + context.names.length
  obtain free | ⟨stopped, allTaken⟩ :=
    freeNumber_cases (fun number => context.isTaken name (candidates number)) bound 0
  · exact Bool.false_ne_true (free.symm.trans taken)
  -- One more candidate than there are names in use would be in use.
  have inUse : (List.range (bound + 1)).map candidates ⊆
      context.mangled.values ++ context.names := by
    intro identifier member
    obtain ⟨number, listed, rfl⟩ := List.mem_map.mp member
    apply @mem_of_isTaken context name
    rcases Nat.lt_succ_iff_lt_or_eq.mp (List.mem_range.mp listed) with less | rfl
    · exact allTaken number (Nat.zero_le _) (by omega)
    · rw [Nat.zero_add] at stopped
      exact stopped ▸ taken
  have distinct : ((List.range (bound + 1)).map candidates).Nodup :=
    List.Nodup.map (candidate_injective _) List.nodup_range
  have fewer := (distinct.subperm inUse).length_le
  rw [List.length_map, List.length_range, List.length_append] at fewer
  omega

theorem freshIdentifier_not_mem (context : Context) (name : String) :
    context.freshIdentifier name ∉ context.mangled.values := by
  have free := context.isTaken_freshIdentifier name
  rw [isTaken, Bool.or_eq_false_iff] at free
  intro given
  rw [List.contains_iff_mem.mpr given] at free
  exact Bool.noConfusion free.1

/-- An identifier that was given is not given again. -/
theorem ne_freshIdentifier_of_given {context : Context} {other identifier : String}
    (given : context.mangled.find? other = some identifier) (name : String) :
    identifier ≠ context.freshIdentifier name := by
  rintro rfl
  have entry := Dict.mem_of_search given
  exact context.freshIdentifier_not_mem name (List.mem_map_of_mem (f := Prod.snd) entry)

theorem eq_of_isBuffer_freshIdentifier {context : Context} {name : String}
    (known : context.isBuffer (context.freshIdentifier name) = true) :
    context.freshIdentifier name = name := by
  have free := context.isTaken_freshIdentifier name
  rw [isTaken, known, Bool.true_and, Bool.or_eq_false_iff] at free
  simpa using free.2

/-- **A new identifier is the first free candidate.** -/
theorem freshIdentifier_eq_candidate (context : Context) (name : String) :
    ∃ number, context.freshIdentifier name =
        candidate (context.namePrefix ++ sanitize name) number ∧
      context.isTaken name (candidate (context.namePrefix ++ sanitize name) number) = false ∧
      ∀ smaller < number,
        context.isTaken name (candidate (context.namePrefix ++ sanitize name) smaller) = true :=
  ⟨_, rfl, context.isTaken_freshIdentifier name,
    fun _ less => taken_of_lt_freeNumber (Nat.zero_le _) less⟩

/-! ### The spelling of identifiers -/

theorem toList_sanitize (name : String) :
    (sanitize name).toList =
      name.toList.map fun char => if isIdentifierChar char then char else '_' :=
  String.toList_ofList

/-- An identifier is the prefix, the name without what cannot stand in code, and perhaps an
underscore with a number. -/
theorem toList_freshIdentifier (context : Context) (name : String) :
    ∃ suffix, (context.freshIdentifier name).toList =
        context.namePrefix.toList ++ ((sanitize name).toList ++ suffix) ∧
      (suffix = [] ∨ ∃ digit ∈ suffix.getLast?, digit.isDigit = true) := by
  obtain ⟨number, chosen⟩ : ∃ number, context.freshIdentifier name =
    candidate (context.namePrefix ++ sanitize name) number := ⟨_, rfl⟩
  rw [chosen]
  cases number with
  | zero => exact ⟨[], by simp [candidate], .inl rfl⟩
  | succ number =>
      refine ⟨'_' :: (toString (number + 1)).toList, by simp [candidate], .inr ?_⟩
      have written : (toString (number + 1)).toList = Nat.toDigits 10 (number + 1) := by
        simp [toString, Nat.repr]
      rw [written, List.getLast?_cons]
      cases last : (Nat.toDigits 10 (number + 1)).getLast? with
      | none => simp at last
      | some digit =>
          exact ⟨digit, rfl, Nat.isDigit_of_mem_toDigits (by decide) (by decide)
            (List.mem_of_getLast? last)⟩

/-- A name that cannot stand in code as it is gets another identifier. -/
theorem freshIdentifier_ne {context : Context} {name : String} {char : Char}
    (member : char ∈ name.toList) (unfit : isIdentifierChar char = false) :
    context.freshIdentifier name ≠ name := by
  intro same
  obtain ⟨suffix, spelled, -⟩ := context.toList_freshIdentifier name
  rw [same, toList_sanitize] at spelled
  have lengths := congrArg List.length spelled
  simp only [List.length_append, List.length_map] at lengths
  have noPrefix : context.namePrefix.toList = [] := List.length_eq_zero_iff.mp (by omega)
  have noSuffix : suffix = [] := List.length_eq_zero_iff.mp (by omega)
  rw [noPrefix, noSuffix, List.nil_append, List.append_nil] at spelled
  rw [spelled] at member
  obtain ⟨original, -, replaced⟩ := List.mem_map.mp member
  split at replaced
  · next fit => exact Bool.false_ne_true (unfit.symm.trans (replaced ▸ fit))
  · rw [← replaced] at unfit
    exact Bool.noConfusion unfit

/-! ### Giving identifiers -/

theorem mangle_of_given {context : Context} {name identifier : String}
    (given : context.mangled.find? name = some identifier) :
    context.mangle name = (identifier, context) := by
  rw [mangle, given]

theorem mangle_of_new {context : Context} {name : String}
    (new : context.mangled.find? name = none) :
    context.mangle name = (context.freshIdentifier name,
      { context with
        mangled := context.mangled.insert name (context.freshIdentifier name) }) := by
  rw [mangle, new]

theorem given_mangle (context : Context) (logical : String) :
    (context.mangle logical).2.mangled.find? logical = some (context.mangle logical).1 := by
  cases given : context.mangled.find? logical with
  | some identifier =>
      rw [mangle_of_given given]
      exact given
  | none =>
      rw [mangle_of_new given]
      exact Dict.find?_insert_self _ _ _

end Context

end TensorLowering
