import Mathlib.Algebra.Order.Field.Rat
import Mathlib.Algebra.Order.Ring.Abs
import Mathlib.Tactic.Linarith
import Mathlib.Tactic.Positivity
import Mathlib.Tactic.Ring
import TensorLowering.Proofs.AcceptedValues

/-! # Ranges of numeric types

An integer type ranges over the integers between its bounds, a floating-point type over the numbers
up to its largest magnitude. One type covers another by its bounds, by the widths of mantissa and
exponent, or by the bits of the significand, according to the kinds of the two. The last comparison
does not look at the exponent. So a type that covers another has the numbers of the other in its
range exactly if the exponent of a floating-point type reaches the width of the integers
(`TensorLowering.Registry.canRepresent_exact`).
-/

namespace TensorLowering

namespace TypeKind

/-- An integer or floating-point type. -/
def IsNumeric : TypeKind → Prop
  | .int .. => True
  | .float .. => True
  | _ => False

/-- The largest magnitude of a floating-point type: a significand of ones at the greatest
exponent. -/
def floatBound (mantissa exponent : Nat) : ℚ :=
  (2 - (2 ^ mantissa)⁻¹) * 2 ^ (2 ^ (exponent - 1) - 1)

/-- A number is in the range of a numeric type. -/
def InRange : TypeKind → ℚ → Prop
  | .int width signed, number => ∃ value least greatest : ℤ, number = value ∧
      intBounds? (.int width signed) = some (least, greatest) ∧ least ≤ value ∧ value ≤ greatest
  | .float _ mantissa exponent, number => |number| ≤ floatBound mantissa exponent
  | _, _ => False

/-- The bits of an integer that are not its sign. -/
def magnitudeBits (width : Nat) (signed : Bool) : Nat := if signed then width - 1 else width

/-- The largest magnitude of an integer type. -/
def intBound (width : Nat) (signed : Bool) : ℚ :=
  if signed then 2 ^ magnitudeBits width signed else 2 ^ magnitudeBits width signed - 1

/-! ### Largest magnitudes -/

theorem significand_bounds (mantissa : Nat) :
    (1 : ℚ) ≤ 2 - (2 ^ mantissa)⁻¹ ∧ (2 : ℚ) - (2 ^ mantissa)⁻¹ < 2 := by
  have positive : (0 : ℚ) < (2 ^ mantissa)⁻¹ := by positivity
  have atMost : ((2 : ℚ) ^ mantissa)⁻¹ ≤ 1 := inv_le_one_of_one_le₀ (one_le_pow₀ one_le_two)
  constructor <;> linarith

theorem floatBound_mono {mantissa other exponent otherExponent : Nat}
    (mantissas : other ≤ mantissa) (exponents : otherExponent ≤ exponent) :
    floatBound other otherExponent ≤ floatBound mantissa exponent := by
  have significands : (2 : ℚ) - (2 ^ other)⁻¹ ≤ 2 - (2 ^ mantissa)⁻¹ := by
    gcongr
    exact one_le_two
  have greatest : 2 ^ (otherExponent - 1) - 1 ≤ 2 ^ (exponent - 1) - 1 :=
    Nat.sub_le_sub_right (Nat.pow_le_pow_right two_pos (Nat.sub_le_sub_right exponents 1)) 1
  have nonnegative : (0 : ℚ) ≤ 2 - (2 ^ mantissa)⁻¹ :=
    zero_le_one.trans (significand_bounds mantissa).1
  exact mul_le_mul significands (pow_le_pow_right₀ one_le_two greatest) (by positivity) nonnegative

/-- The largest magnitude lies between the power of the greatest exponent and the next one. -/
theorem floatBound_bounds (mantissa exponent : Nat) :
    2 ^ (2 ^ (exponent - 1) - 1) ≤ floatBound mantissa exponent ∧
      floatBound mantissa exponent < 2 ^ 2 ^ (exponent - 1) := by
  obtain ⟨atLeast, below⟩ := significand_bounds mantissa
  have power : (0 : ℚ) < 2 ^ (2 ^ (exponent - 1) - 1) := by positivity
  have next : (2 : ℚ) ^ 2 ^ (exponent - 1) = 2 * 2 ^ (2 ^ (exponent - 1) - 1) := by
    rw [← pow_succ', Nat.sub_add_cancel Nat.one_le_two_pow]
  rw [floatBound, next]
  exact ⟨le_mul_of_one_le_left power.le atLeast, mul_lt_mul_of_pos_right below power⟩

theorem pow_le_floatBound_iff {bits mantissa exponent : Nat} :
    2 ^ bits ≤ floatBound mantissa exponent ↔ bits < 2 ^ (exponent - 1) := by
  obtain ⟨atLeast, below⟩ := floatBound_bounds mantissa exponent
  constructor
  · intro within
    exact (pow_lt_pow_iff_right₀ one_lt_two).mp (within.trans_lt below)
  · intro less
    exact (pow_le_pow_right₀ one_le_two (Nat.le_sub_one_of_lt less)).trans atLeast

/-- A number of ones may have one bit more than a power in range, if the significand has all these
bits. -/
theorem ones_le_floatBound_iff {bits mantissa exponent : Nat} (fits : bits ≤ mantissa + 1) :
    2 ^ bits - 1 ≤ floatBound mantissa exponent ↔ bits ≤ 2 ^ (exponent - 1) := by
  have reach : 1 ≤ 2 ^ (exponent - 1) := Nat.one_le_two_pow
  constructor
  · intro within
    by_contra short
    have below := (floatBound_bounds mantissa exponent).2
    have wide : (2 : ℚ) ^ (2 ^ (exponent - 1) + 1) ≤ 2 ^ bits :=
      pow_le_pow_right₀ one_le_two (Nat.lt_of_not_le short)
    have large : (1 : ℚ) ≤ 2 ^ 2 ^ (exponent - 1) := one_le_pow₀ one_le_two
    rw [pow_succ] at wide
    linarith
  · intro reached
    rcases Nat.lt_or_eq_of_le reached with less | exactly
    · have power : 2 ^ bits ≤ floatBound mantissa exponent := pow_le_floatBound_iff.mpr less
      linarith
    · -- The last bit of the significand counts at most one, so that all ones are in range.
      have lastBit : (2 ^ mantissa)⁻¹ * (2 : ℚ) ^ (2 ^ (exponent - 1) - 1) ≤ 1 := by
        rw [inv_mul_le_one₀ (by positivity)]
        exact pow_le_pow_right₀ one_le_two (by omega)
      have next : (2 : ℚ) ^ bits = 2 * 2 ^ (2 ^ (exponent - 1) - 1) := by
        rw [← pow_succ', Nat.sub_add_cancel reach, exactly]
      rw [floatBound, sub_mul, next]
      linarith

/-- Where the significand has a bit for each bit of the magnitudes, the largest one is in range
exactly if the greatest exponent reaches the width. -/
theorem intBound_le_floatBound_iff {width mantissa exponent : Nat} {signed : Bool}
    (positive : 1 ≤ width) (fits : magnitudeBits width signed ≤ mantissa + 1) :
    intBound width signed ≤ floatBound mantissa exponent ↔ width ≤ 2 ^ (exponent - 1) := by
  cases signed with
  | true =>
      have reach : width - 1 < 2 ^ (exponent - 1) ↔ width ≤ 2 ^ (exponent - 1) := by omega
      exact pow_le_floatBound_iff.trans reach
  | false => exact ones_le_floatBound_iff fits

theorem floatBound_mul_pow {mantissa places : Nat} (exponent : Nat) (narrow : mantissa ≤ places) :
    floatBound mantissa exponent * 2 ^ places =
      ((2 ^ (mantissa + 1) - 1) * 2 ^ (2 ^ (exponent - 1) - 1 + places - mantissa) : Nat) := by
  have significand : (2 - ((2 : ℚ) ^ mantissa)⁻¹) * 2 ^ mantissa = 2 ^ (mantissa + 1) - 1 := by
    rw [sub_mul, inv_mul_cancel₀ (by positivity), pow_succ']
  have shift : (2 : ℚ) ^ places = 2 ^ mantissa * 2 ^ (places - mantissa) := by
    rw [← pow_add, Nat.add_sub_cancel' narrow]
  rw [Nat.add_sub_assoc narrow, Nat.cast_mul, Nat.cast_sub Nat.one_le_two_pow, floatBound, shift]
  push_cast
  rw [← significand, pow_add]
  ring

theorem parts_of_sound {width mantissa exponent : Nat}
    (sound : fault? (.float width mantissa exponent) = none) :
    (1 ≤ exponent ∧ exponent ≤ 11) ∧ mantissa ≤ 52 := by
  rw [fault?] at sound
  split at sound
  · cases sound
  · split at sound
    · cases sound
    · next exponents =>
        split at sound
        · cases sound
        · next narrow => exact ⟨not_not.mp exponents, Nat.le_of_not_lt narrow⟩

/-- The largest number of a floating-point type is its largest magnitude. -/
theorem inRange_iff_floatMax {width mantissa exponent : Nat}
    (sound : fault? (.float width mantissa exponent) = none) :
    ∃ units, floatMax? (.float width mantissa exponent) = some (.finite false units) ∧
      ∀ number, InRange (.float width mantissa exponent) number ↔
        |number| ≤ units / Double.one := by
  have parts := parts_of_sound sound
  have largest : floatMax? (.float width mantissa exponent) = some (.finite false
      ((2 ^ (mantissa + 1) - 1) * 2 ^ (2 ^ (exponent - 1) - 1 + 1074 - mantissa))) := by
    rw [floatMax?, floatLimit?, if_pos parts]
    rfl
  refine ⟨_, largest, fun number => ?_⟩
  -- The exponent of the unit gets a name, so that no step evaluates its power.
  obtain ⟨places, isPlaces⟩ : ∃ places, places = 1074 := ⟨_, rfl⟩
  have narrow : mantissa ≤ places := isPlaces ▸ parts.2.trans (by decide)
  have one : (Double.one : ℚ) = 2 ^ places := by
    unfold Double.one
    rw [← isPlaces]
    exact Nat.cast_pow 2 places
  have positive : (0 : ℚ) < Double.one := by
    rw [one]
    positivity
  rw [le_div_iff₀ positive, ← isPlaces]
  have scaled := floatBound_mul_pow exponent narrow
  rw [← one] at scaled
  rw [← scaled, mul_le_mul_iff_left₀ positive, InRange]

/-! ### Integer types -/

theorem fault?_int_eq_none_iff {width : Nat} {signed : Bool} :
    fault? (.int width signed) = none ↔ 1 ≤ width ∧ width ≤ 64 := by
  rw [fault?]
  split <;> simp_all

/-- The least and the greatest value by the bits of the magnitude. -/
theorem intBounds?_of_sound {width : Nat} {signed : Bool}
    (sound : fault? (.int width signed) = none) :
    intBounds? (.int width signed) =
      some (if signed then -2 ^ magnitudeBits width signed else 0,
        2 ^ magnitudeBits width signed - 1) := by
  rw [intBounds?, if_pos (fault?_int_eq_none_iff.mp sound)]
  cases signed <;> rfl

theorem inRange_int_iff {width : Nat} {signed : Bool} {number : ℚ}
    (sound : fault? (.int width signed) = none) :
    InRange (.int width signed) number ↔ ∃ value : ℤ, number = value ∧
      (if signed then -2 ^ magnitudeBits width signed else 0) ≤ value ∧
        value ≤ 2 ^ magnitudeBits width signed - 1 := by
  simp only [InRange, intBounds?_of_sound sound, Option.some.injEq, Prod.mk.injEq]
  constructor
  · intro held
    obtain ⟨value, _, _, same, ⟨rfl, rfl⟩, above, below⟩ := held
    exact ⟨value, same, above, below⟩
  · intro held
    obtain ⟨value, same, above, below⟩ := held
    exact ⟨value, _, _, same, ⟨rfl, rfl⟩, above, below⟩

/-- The magnitudes of an integer type go up to its largest one. -/
theorem forall_inRange_int_iff {width : Nat} {signed : Bool} {bound : ℚ}
    (sound : fault? (.int width signed) = none) :
    (∀ number, InRange (.int width signed) number → |number| ≤ bound) ↔
      intBound width signed ≤ bound := by
  simp only [inRange_int_iff sound]
  have power : (0 : ℤ) < 2 ^ magnitudeBits width signed := by positivity
  cases signed with
  | true =>
      constructor
      · intro within
        have least := within (-2 ^ magnitudeBits width true)
          ⟨-2 ^ magnitudeBits width true, by push_cast; rfl, le_rfl, by omega⟩
        rwa [abs_neg, abs_of_nonneg (by positivity)] at least
      · intro bounded number held
        obtain ⟨value, rfl, above, below⟩ := held
        have aboveRat : -2 ^ magnitudeBits width true ≤ (value : ℚ) := by exact_mod_cast above
        have belowRat : (value : ℚ) ≤ 2 ^ magnitudeBits width true - 1 := by exact_mod_cast below
        exact (abs_le.mpr ⟨aboveRat, by linarith⟩).trans bounded
  | false =>
      constructor
      · intro within
        have greatest := within (2 ^ magnitudeBits width false - 1)
          ⟨2 ^ magnitudeBits width false - 1, by push_cast; rfl, Int.le_sub_one_of_lt power, le_rfl⟩
        exact (le_abs_self _).trans greatest
      · intro bounded number held
        obtain ⟨value, rfl, above, below⟩ := held
        have aboveRat : (0 : ℚ) ≤ value := by exact_mod_cast above
        have belowRat : (value : ℚ) ≤ 2 ^ magnitudeBits width false - 1 := by exact_mod_cast below
        exact (abs_of_nonneg aboveRat).trans_le (belowRat.trans bounded)

/-! ### Comparing types -/

/-- How one numeric type covers another: by its bounds, by the widths of its parts, or by the bits
of its significand. -/
inductive Covers : TypeKind → TypeKind → Prop
  | bounds {width otherWidth : Nat} {signed otherSigned : Bool}
      (signs : otherSigned = true → signed = true)
      (bits : magnitudeBits otherWidth otherSigned ≤ magnitudeBits width signed) :
      Covers (.int width signed) (.int otherWidth otherSigned)
  | parts {width mantissa exponent otherWidth otherMantissa otherExponent : Nat}
      (mantissas : otherMantissa ≤ mantissa) (exponents : otherExponent ≤ exponent) :
      Covers (.float width mantissa exponent) (.float otherWidth otherMantissa otherExponent)
  | significand {width mantissa exponent otherWidth : Nat} {signed : Bool}
      (bits : magnitudeBits otherWidth signed ≤ mantissa + 1) :
      Covers (.float width mantissa exponent) (.int otherWidth signed)

/-- The greatest exponent of a floating-point type reaches the width of an integer type. -/
def Reaches : TypeKind → TypeKind → Prop
  | .float _ _ exponent, .int width _ => width ≤ 2 ^ (exponent - 1)
  | _, _ => True

/-- The bounds of one integer type are within those of another by sign and bits. -/
theorem bounds_le_iff {bits otherBits : Nat} {signed otherSigned : Bool} :
    ((2 : ℤ) ^ otherBits - 1 ≤ 2 ^ bits - 1 ∧
      (if signed then -(2 : ℤ) ^ bits else 0) ≤ if otherSigned then -2 ^ otherBits else 0) ↔
      (otherSigned = true → signed = true) ∧ otherBits ≤ bits := by
  have powers : (2 : ℤ) ^ otherBits ≤ 2 ^ bits ↔ otherBits ≤ bits :=
    pow_le_pow_iff_right₀ one_lt_two
  have positive : (0 : ℤ) < 2 ^ bits := by positivity
  have otherPositive : (0 : ℤ) < 2 ^ otherBits := by positivity
  cases signed <;> cases otherSigned <;> simp [powers, positive.le, otherPositive]

theorem covers_bounds_iff {width otherWidth : Nat} {signed otherSigned : Bool} :
    Covers (.int width signed) (.int otherWidth otherSigned) ↔
      (otherSigned = true → signed = true) ∧
        magnitudeBits otherWidth otherSigned ≤ magnitudeBits width signed := by
  refine ⟨fun covers => ?_, fun fits => .bounds fits.1 fits.2⟩
  cases covers with
  | bounds signs bits => exact ⟨signs, bits⟩

theorem IsNumeric.covers_self {kind : TypeKind} (numeric : kind.IsNumeric) : Covers kind kind := by
  cases kind with
  | int width signed => exact .bounds id le_rfl
  | float width mantissa exponent => exact .parts le_rfl le_rfl
  | _ => exact numeric.elim

theorem Covers.trans {kind other last : TypeKind} (covers : Covers kind other)
    (others : Covers other last) : Covers kind last := by
  cases covers with
  | bounds signs bits =>
      cases others with
      | bounds otherSigns otherBits => exact .bounds (signs ∘ otherSigns) (otherBits.trans bits)
  | parts mantissas exponents =>
      cases others with
      | parts otherMantissas otherExponents =>
          exact .parts (otherMantissas.trans mantissas) (otherExponents.trans exponents)
      | significand bits => exact .significand (bits.trans (Nat.succ_le_succ mantissas))
  | significand bits =>
      cases others with
      | bounds _ otherBits => exact .significand (otherBits.trans bits)

/-- A numeric type has the range of one that it covers, except for integers beyond the reach of its
exponent. -/
theorem Covers.inRange_iff_reaches {kind other : TypeKind} (covers : Covers kind other)
    (sound : kind.fault? = none) (otherSound : other.fault? = none) :
    (∀ number, other.InRange number → kind.InRange number) ↔ kind.Reaches other := by
  cases covers with
  | bounds signs bits =>
      refine iff_of_true (fun number member => ?_) trivial
      obtain ⟨greatest, least⟩ := bounds_le_iff.mpr ⟨signs, bits⟩
      obtain ⟨value, same, above, below⟩ := (inRange_int_iff otherSound).mp member
      exact (inRange_int_iff sound).mpr ⟨value, same, least.trans above, below.trans greatest⟩
  | parts mantissas exponents =>
      refine iff_of_true (fun number member => ?_) trivial
      exact le_trans member (floatBound_mono mantissas exponents)
  | significand bits =>
      exact (forall_inRange_int_iff otherSound).trans
        (intBound_le_floatBound_iff (fault?_int_eq_none_iff.mp otherSound).1 bits)

end TypeKind

namespace Registry

open TypeKind

variable {registry : Registry} {first second third : TypeId}

/-- Well-formed types are compared: a type represents itself and what its kind covers. -/
theorem canRepresent_of_sound {kind other : TypeKind} (found : registry.kind first = .ok kind)
    (otherFound : registry.kind second = .ok other) (sound : kind.fault? = none)
    (otherSound : other.fault? = none) :
    ∃ answer, registry.canRepresent first second = .ok answer ∧
      (answer = true ↔ first = second ∨ Covers kind other) := by
  have own : kind.IsNumeric → first = second → Covers kind other := by
    intro numeric same
    subst same
    obtain rfl := Except.ok.inj (found.symm.trans otherFound)
    exact numeric.covers_self
  have checked := checkKind_eq_ok_iff.mpr sound
  have otherChecked := checkKind_eq_ok_iff.mpr otherSound
  unfold canRepresent
  simp only [bind, Except.bind, found, otherFound, checked, otherChecked]
  cases kind with
  | int width signed =>
      cases other with
      | int otherWidth otherSigned =>
          refine ⟨_, rfl, ?_⟩
          rw [or_iff_right_of_imp (own trivial), covers_bounds_iff, ← bounds_le_iff,
            intBounds?_of_sound sound, intBounds?_of_sound otherSound]
          simp only [Option.getD_some, Bool.and_eq_true, decide_eq_true_eq]
      | _ =>
          refine ⟨_, rfl, ?_⟩
          rw [or_iff_left (fun covers => by cases covers), decide_eq_true_iff]
  | float width mantissa exponent =>
      cases other with
      | int otherWidth signed =>
          refine ⟨_, rfl, ?_⟩
          rw [or_iff_right_of_imp (own trivial), decide_eq_true_iff]
          refine ⟨.significand, fun covers => ?_⟩
          cases covers with
          | significand bits => exact bits
      | float otherWidth otherMantissa otherExponent =>
          refine ⟨_, rfl, ?_⟩
          rw [or_iff_right_of_imp (own trivial), Bool.and_eq_true, decide_eq_true_iff,
            decide_eq_true_iff]
          refine ⟨fun fits => .parts fits.1 fits.2, fun covers => ?_⟩
          cases covers with
          | parts mantissas exponents => exact ⟨mantissas, exponents⟩
      | _ =>
          refine ⟨_, rfl, ?_⟩
          rw [or_iff_left (fun covers => by cases covers), decide_eq_true_iff]
  | _ =>
      refine ⟨_, rfl, ?_⟩
      rw [or_iff_left (fun covers => by cases covers), decide_eq_true_iff]

/-- Types that are compared are valid. -/
theorem sound_of_canRepresent {answer : Bool}
    (compared : registry.canRepresent first second = .ok answer) :
    ∃ kind other, registry.kind first = .ok kind ∧ registry.kind second = .ok other ∧
      kind.fault? = none ∧ other.fault? = none := by
  unfold canRepresent at compared
  simp only [bind, Except.bind] at compared
  split at compared
  · cases compared
  · next kind found =>
      split at compared
      · cases compared
      · next other otherFound =>
          split at compared
          · cases compared
          · next checked =>
              split at compared
              · cases compared
              · next otherChecked =>
                  exact ⟨kind, other, found, otherFound, checkKind_eq_ok_iff.mp checked,
                    checkKind_eq_ok_iff.mp otherChecked⟩

/-- One type represents another if both are well-formed and they are the same, or their kinds
cover. -/
theorem canRepresent_eq_true_iff :
    registry.canRepresent first second = .ok true ↔ ∃ kind other,
      registry.kind first = .ok kind ∧ registry.kind second = .ok other ∧
        kind.fault? = none ∧ other.fault? = none ∧ (first = second ∨ Covers kind other) := by
  constructor
  · intro represents
    obtain ⟨kind, other, found, otherFound, sound, otherSound⟩ := sound_of_canRepresent represents
    obtain ⟨answer, answered, covers⟩ := canRepresent_of_sound found otherFound sound otherSound
    rw [represents] at answered
    cases answered
    exact ⟨kind, other, found, otherFound, sound, otherSound, covers.mp rfl⟩
  · intro held
    obtain ⟨kind, other, found, otherFound, sound, otherSound, covers⟩ := held
    obtain ⟨answer, answered, decides⟩ := canRepresent_of_sound found otherFound sound otherSound
    rw [answered, decides.mpr covers]

theorem canRepresent_self_iff {answer : Bool} :
    registry.canRepresent first first = .ok answer ↔ answer = true ∧ registry.Valid first := by
  constructor
  · intro compared
    obtain ⟨kind, other, found, otherFound, sound, otherSound⟩ := sound_of_canRepresent compared
    obtain ⟨own, answered, decides⟩ := canRepresent_of_sound found otherFound sound otherSound
    rw [compared] at answered
    cases answered
    exact ⟨decides.mpr (.inl rfl), kind, found, sound⟩
  · intro held
    obtain ⟨rfl, kind, found, sound⟩ := held
    exact canRepresent_eq_true_iff.mpr ⟨kind, kind, found, found, sound, sound, .inl rfl⟩

theorem canRepresent_trans (represents : registry.canRepresent first second = .ok true)
    (others : registry.canRepresent second third = .ok true) :
    registry.canRepresent first third = .ok true := by
  obtain ⟨kind, other, found, otherFound, sound, -, covers⟩ :=
    canRepresent_eq_true_iff.mp represents
  rcases covers with rfl | covers
  · exact others
  · obtain ⟨_, last, again, lastFound, -, lastSound, otherCovers⟩ :=
      canRepresent_eq_true_iff.mp others
    cases otherFound.symm.trans again
    rcases otherCovers with rfl | otherCovers
    · exact represents
    · exact canRepresent_eq_true_iff.mpr
        ⟨kind, last, found, lastFound, sound, lastSound, .inr (covers.trans otherCovers)⟩

/-- **When a represented type is in range.** If one numeric type represents another, then every
number in the range of the second is in the range of the first exactly if the greatest exponent of
the first reaches the width of the second, where these are a floating-point and an integer type; all
other pairs are in range. The range of a well-formed floating-point type ends at its largest number.
Every valid type represents itself, and representing composes. -/
theorem canRepresent_exact (registry : Registry) (first second third : TypeId) :
    (∀ kind other, registry.canRepresent first second = .ok true →
      registry.kind first = .ok kind → registry.kind second = .ok other →
      kind.IsNumeric → other.IsNumeric →
        ((∀ number, other.InRange number → kind.InRange number) ↔ kind.Reaches other)) ∧
    (∀ width mantissa exponent, fault? (.float width mantissa exponent) = none →
      ∃ units, floatMax? (.float width mantissa exponent) = some (.finite false units) ∧
        ∀ number, InRange (.float width mantissa exponent) number ↔
          |number| ≤ units / Double.one) ∧
    (∀ answer, registry.canRepresent first first = .ok answer ↔
      answer = true ∧ registry.Valid first) ∧
    (registry.canRepresent first second = .ok true →
      registry.canRepresent second third = .ok true →
        registry.canRepresent first third = .ok true) := by
  refine ⟨?_, fun _ _ _ => inRange_iff_floatMax, fun answer => canRepresent_self_iff,
    canRepresent_trans⟩
  intro kind other represents found otherFound numeric _
  obtain ⟨_, _, again, otherAgain, sound, otherSound, covers⟩ :=
    canRepresent_eq_true_iff.mp represents
  cases found.symm.trans again
  cases otherFound.symm.trans otherAgain
  rcases covers with rfl | covers
  · cases found.symm.trans otherFound
    exact numeric.covers_self.inRange_iff_reaches sound sound
  · exact covers.inRange_iff_reaches sound otherSound

/-- Single precision, words and bytes. -/
def wordRegistry : Registry where
  kinds := [.float 32 23 8, .int 16 true, .int 8 false]

/-- Single precision represents words and words represent bytes. So all words are in its range, and
it represents bytes. -/
theorem canRepresent_exact_wordRegistry :
    wordRegistry.canRepresent ⟨0⟩ ⟨1⟩ = .ok true ∧ wordRegistry.canRepresent ⟨1⟩ ⟨2⟩ = .ok true ∧
    (∀ number, InRange (.int 16 true) number → InRange (.float 32 23 8) number) ∧
    wordRegistry.canRepresent ⟨0⟩ ⟨2⟩ = .ok true := by
  obtain ⟨inRange, -, -, composes⟩ := canRepresent_exact wordRegistry ⟨0⟩ ⟨1⟩ ⟨2⟩
  have reaches : Reaches (.float 32 23 8) (.int 16 true) := by
    change 16 ≤ 2 ^ (8 - 1)
    decide
  exact ⟨rfl, rfl, (inRange _ _ rfl rfl rfl trivial trivial).mpr reaches, composes rfl rfl⟩

/-- A floating-point type of eight bits with a short exponent, and integers of six bits. -/
def shortRegistry : Registry where
  kinds := [.float 8 4 3, .int 6 true]

/-- The significand has the five bits of the magnitudes, so that the integers are represented. But
the largest number of the floating-point type is 15.5, and 31 is one of the integers. -/
theorem shortRegistry_out_of_range :
    shortRegistry.canRepresent ⟨0⟩ ⟨1⟩ = .ok true ∧
    shortRegistry.kind ⟨0⟩ = .ok (.float 8 4 3) ∧ shortRegistry.kind ⟨1⟩ = .ok (.int 6 true) ∧
    InRange (.int 6 true) 31 ∧ ¬InRange (.float 8 4 3) 31 := by
  refine ⟨rfl, rfl, rfl, ⟨31, -32, 31, by norm_num, rfl, by decide, by decide⟩, ?_⟩
  have bound : floatBound 4 3 = 31 / 2 := by norm_num [floatBound]
  rw [InRange, bound]
  norm_num

end Registry

end TensorLowering
