import Mathlib.Algebra.Order.Field.Power
import Mathlib.Algebra.Order.Ring.Rat
import Mathlib.Order.WithBot
import Mathlib.Tactic.Linarith
import Mathlib.Tactic.NormNum
import Mathlib.Tactic.Positivity
import Mathlib.Tactic.Ring
import ValuePath.Number.Binary64

/-!
# The numbers that bits stand for

The bits of a floating point number stand for a rational number, or for an infinity of either sign.
A NaN stands for no number. Apart from the two zeros, different bits stand for different numbers: a
significand has a leading bit, unless the exponent is the least one, so that of two sizes with
different exponents the one with the greater exponent is the greater.

* `Binary64.number?` is the number that the bits stand for.
* `Binary64.toNat_bits`: the bits are the sign and the two fields in a row.
* `Binary64.fields_eq_of_magnitude_eq`: the size of a number determines its fields.
* `Binary64.numEq_iff_number?`: two of them are equal exactly if they stand for the same number.
-/

namespace ValuePath.Binary64

/-- The size of a finite number. -/
def magnitude (x : Binary64) : ℚ :=
  x.significand * 2 ^ x.exponent

/-- A finite number with its sign. -/
def rational (x : Binary64) : ℚ :=
  if x.isNegative then -x.magnitude else x.magnitude

/-- A number that may be an infinity. -/
def extended (x : Binary64) : WithBot (WithTop ℚ) :=
  if x.isFinite then ((x.rational : WithTop ℚ) : WithBot (WithTop ℚ))
  else if x.isNegative then ⊥
  else ⊤

/-- The number that the bits stand for, which is rational or one of two infinities. A NaN stands for
none. -/
def number? (x : Binary64) : Option (WithBot (WithTop ℚ)) :=
  if x.isNaN then none else some x.extended

variable {x y : Binary64}

/-! ## Fields -/

theorem fractionField_lt (x : Binary64) : x.fractionField < 2 ^ 52 :=
  Nat.mod_lt _ (by norm_num)

theorem isNegative_iff : x.isNegative = true ↔ 2 ^ 63 ≤ x.bits.toNat := by
  have hbits := x.bits.toNat_lt
  rw [isNegative, decide_eq_true_eq, ← UInt64.toNat_inj, UInt64.toNat_shiftRight,
    Nat.shiftRight_eq_div_pow]
  change x.bits.toNat / 2 ^ 63 = 1 ↔ _
  norm_num at hbits ⊢
  omega

/-- The bits are the sign, the exponent and the fraction in a row. -/
theorem toNat_bits (x : Binary64) :
    x.bits.toNat =
      (if x.isNegative then 2 ^ 63 else 0) + x.exponentField * 2 ^ 52 + x.fractionField := by
  have hbits := x.bits.toNat_lt
  rw [exponentField, fractionField]
  norm_num at hbits ⊢
  split
  next hneg =>
    have hge := isNegative_iff.mp hneg
    norm_num at hge
    omega
  next hpos =>
    have hlt := mt isNegative_iff.mpr hpos
    norm_num at hlt
    omega

/-- A number is determined by its sign and its fields. -/
theorem eq_of_fields_eq (hsign : x.isNegative = y.isNegative)
    (hexponent : x.exponentField = y.exponentField)
    (hfraction : x.fractionField = y.fractionField) : x = y := by
  have hbits : x.bits = y.bits := by
    apply UInt64.toNat_inj.mp
    rw [toNat_bits, toNat_bits, hsign, hexponent, hfraction]
  exact congrArg mk hbits

/-! ## Sizes -/

theorem significand_lt (x : Binary64) : x.significand < 2 ^ 53 := by
  have hfraction := x.fractionField_lt
  rw [significand]
  norm_num at hfraction ⊢
  split <;> omega

/-- Only the numbers of the least exponent field have a significand without its leading bit. -/
theorem significand_lt_iff : x.significand < 2 ^ 52 ↔ x.exponentField = 0 := by
  have hfraction := x.fractionField_lt
  rw [significand]
  split
  next hzero => exact iff_of_true hfraction hzero
  next hpos => exact iff_of_false (Nat.not_lt.mpr (Nat.le_add_right _ _)) hpos

theorem magnitude_nonneg (x : Binary64) : 0 ≤ x.magnitude := by
  rw [magnitude]
  positivity

/-- Only a zero has no size. -/
theorem magnitude_eq_zero_iff : x.magnitude = 0 ↔ x.isZero = true := by
  have hpower : (2 : ℚ) ^ x.exponent ≠ 0 := zpow_ne_zero _ two_ne_zero
  rw [magnitude, mul_eq_zero_iff_right hpower, Nat.cast_eq_zero, significand, isZero]
  by_cases hexponent : x.exponentField = 0
  · simp [hexponent]
  · simp [hexponent]

/-- A number with a greater exponent is greater. -/
theorem magnitude_lt_of_exponent_lt (h : x.exponent < y.exponent) : x.magnitude < y.magnitude := by
  have hfield : y.exponentField ≠ 0 := by
    intro hzero
    rw [exponent, exponent, if_pos hzero] at h
    split at h <;> omega
  have hx : (x.significand : ℚ) < 2 ^ 53 := by exact_mod_cast x.significand_lt
  have hy : (2 : ℚ) ^ 52 ≤ y.significand := by
    exact_mod_cast Nat.not_lt.mp (mt significand_lt_iff.mp hfield)
  have hpower : (2 : ℚ) ^ (x.exponent + 1) ≤ 2 ^ y.exponent :=
    zpow_le_zpow_right₀ one_le_two h
  -- the leading bit of the second number is worth more than all bits of the first one
  calc
    x.magnitude < 2 ^ 53 * 2 ^ x.exponent := by
      rw [magnitude]
      gcongr
    _ = 2 ^ 52 * 2 ^ (x.exponent + 1) := by
      rw [zpow_add_one₀ two_ne_zero]
      ring
    _ ≤ y.significand * 2 ^ y.exponent := by gcongr
    _ = y.magnitude := rfl

theorem exponent_eq_of_magnitude_eq (h : x.magnitude = y.magnitude) : x.exponent = y.exponent := by
  rcases lt_trichotomy x.exponent y.exponent with hlt | heq | hgt
  · exact absurd h (magnitude_lt_of_exponent_lt hlt).ne
  · exact heq
  · exact absurd h (magnitude_lt_of_exponent_lt hgt).ne'

/-- Numbers of the same size have the same fields. -/
theorem fields_eq_of_magnitude_eq (h : x.magnitude = y.magnitude) :
    x.exponentField = y.exponentField ∧ x.fractionField = y.fractionField := by
  have hexponent := exponent_eq_of_magnitude_eq h
  have hsignificand : x.significand = y.significand := by
    rw [magnitude, magnitude, hexponent] at h
    exact_mod_cast mul_right_cancel₀ (zpow_ne_zero _ two_ne_zero) h
  -- the two least exponent fields have the same exponent, but only one has a leading bit
  have hzero : x.exponentField = 0 ↔ y.exponentField = 0 := by
    rw [← significand_lt_iff, ← significand_lt_iff, hsignificand]
  rw [exponent, exponent] at hexponent
  rw [significand, significand] at hsignificand
  by_cases hx : x.exponentField = 0
  · rw [if_pos hx, if_pos (hzero.mp hx)] at hsignificand
    exact ⟨hx.trans (hzero.mp hx).symm, hsignificand⟩
  · rw [if_neg hx, if_neg (mt hzero.mpr hx)] at hexponent hsignificand
    exact ⟨by omega, Nat.add_left_cancel hsignificand⟩

/-! ## Numbers -/

/-- Finite numbers are the same rational number only if they are the same, or both zero. -/
theorem rational_eq_iff :
    x.rational = y.rational ↔ x = y ∨ x.isZero = true ∧ y.isZero = true := by
  constructor
  · intro h
    by_cases hsign : x.isNegative = y.isNegative
    · have hsize : x.magnitude = y.magnitude := by
        rw [rational, rational, hsign] at h
        split at h
        · exact neg_injective h
        · exact h
      obtain ⟨hexponent, hfraction⟩ := fields_eq_of_magnitude_eq hsize
      exact .inl (eq_of_fields_eq hsign hexponent hfraction)
    · -- sizes with different signs cancel only if there is nothing to cancel
      have hsum : x.magnitude + y.magnitude = 0 := by
        rw [rational, rational] at h
        cases hx : x.isNegative <;> cases hy : y.isNegative <;> simp [hx, hy] at h hsign
        all_goals linarith
      have hzero := (add_eq_zero_iff_of_nonneg x.magnitude_nonneg y.magnitude_nonneg).mp hsum
      exact .inr (hzero.imp magnitude_eq_zero_iff.mp magnitude_eq_zero_iff.mp)
  · rintro (rfl | ⟨hx, hy⟩)
    · rfl
    · rw [rational, rational, magnitude_eq_zero_iff.mpr hx, magnitude_eq_zero_iff.mpr hy, neg_zero,
        ite_self, ite_self]

/-- A number that is not finite is an infinity or a NaN. -/
theorem fields_of_not_isFinite (hnan : x.isNaN = false) (hfinite : x.isFinite = false) :
    x.exponentField = 2047 ∧ x.fractionField = 0 := by
  have hbound : x.exponentField < 2048 := Nat.mod_lt _ (by norm_num)
  have hge : 2047 ≤ x.exponentField := by simpa [isFinite] using hfinite
  have hexponent : x.exponentField = 2047 := by omega
  have hfraction : x.fractionField = 0 := by simpa [isNaN, hexponent] using hnan
  exact ⟨hexponent, hfraction⟩

theorem isFinite_of_isZero (h : x.isZero = true) : x.isFinite = true := by
  have hexponent : x.exponentField = 0 := by
    rw [isZero, Bool.and_eq_true, decide_eq_true_eq] at h
    exact h.1
  rw [isFinite, hexponent]
  rfl

theorem extended_of_isFinite (h : x.isFinite = true) :
    x.extended = ((x.rational : WithTop ℚ) : WithBot (WithTop ℚ)) := by
  rw [extended, if_pos h]

theorem extended_of_not_isFinite (h : x.isFinite = false) :
    x.extended = if x.isNegative then ⊥ else ⊤ := by
  rw [extended, h, if_neg Bool.false_ne_true]

/-- A finite number is no infinity. -/
theorem extended_ne_of_isFinite (hfinite : x.isFinite = true) (hinfinite : y.isFinite = false) :
    x.extended ≠ y.extended := by
  rw [extended_of_isFinite hfinite, extended_of_not_isFinite hinfinite]
  split
  · exact WithBot.coe_ne_bot
  · exact WithBot.coe_injective.ne WithTop.coe_ne_top

/-- Two infinities are the same if they have the same sign. -/
theorem extended_eq_iff_of_not_isFinite (hx : x.isNaN = false) (hy : y.isNaN = false)
    (hxinf : x.isFinite = false) (hyinf : y.isFinite = false) :
    x.extended = y.extended ↔ x = y := by
  constructor
  · intro h
    have hsign : x.isNegative = y.isNegative := by
      rw [extended_of_not_isFinite hxinf, extended_of_not_isFinite hyinf] at h
      cases hxneg : x.isNegative <;> cases hyneg : y.isNegative <;> simp [hxneg, hyneg] at h ⊢
    obtain ⟨hxexponent, hxfraction⟩ := fields_of_not_isFinite hx hxinf
    obtain ⟨hyexponent, hyfraction⟩ := fields_of_not_isFinite hy hyinf
    exact eq_of_fields_eq hsign (hxexponent.trans hyexponent.symm)
      (hxfraction.trans hyfraction.symm)
  · rintro rfl
    rfl

/-- Apart from the NaNs and the two zeros, different bits stand for different numbers. -/
theorem extended_eq_iff (hx : x.isNaN = false) (hy : y.isNaN = false) :
    x.extended = y.extended ↔ x = y ∨ x.isZero = true ∧ y.isZero = true := by
  cases hxfin : x.isFinite with
  | true =>
    cases hyfin : y.isFinite with
    | true =>
      rw [extended_of_isFinite hxfin, extended_of_isFinite hyfin, WithBot.coe_inj, WithTop.coe_inj,
        rational_eq_iff]
    | false =>
      refine iff_of_false (extended_ne_of_isFinite hxfin hyfin) ?_
      rintro (rfl | ⟨-, hzero⟩)
      · exact Bool.false_ne_true (hyfin.symm.trans hxfin)
      · exact Bool.false_ne_true (hyfin.symm.trans (isFinite_of_isZero hzero))
  | false =>
    -- the zeros are finite, so that there is only one way to be equal
    have hnonzero : ¬(x.isZero = true ∧ y.isZero = true) := fun hzero =>
      Bool.false_ne_true (hxfin.symm.trans (isFinite_of_isZero hzero.1))
    rw [or_iff_left hnonzero]
    cases hyfin : y.isFinite with
    | true =>
      refine iff_of_false (extended_ne_of_isFinite hyfin hxfin).symm ?_
      rintro rfl
      exact Bool.false_ne_true (hxfin.symm.trans hyfin)
    | false => exact extended_eq_iff_of_not_isFinite hx hy hxfin hyfin

/-- Two numbers are equal exactly if their bits stand for the same number. -/
theorem numEq_iff_number? :
    x.numEq y = true ↔ ∃ number, x.number? = some number ∧ y.number? = some number := by
  have hbits : x.bits = y.bits ↔ x = y := ⟨congrArg mk, congrArg bits⟩
  cases hx : x.isNaN with
  | true => simp [numEq, number?, hx]
  | false =>
    cases hy : y.isNaN with
    | true => simp [numEq, number?, hy]
    | false =>
      simp only [numEq, number?, hx, hy, Bool.not_false, Bool.true_and, Bool.or_eq_true,
        Bool.and_eq_true, decide_eq_true_eq, hbits]
      rw [← extended_eq_iff hx hy]
      simp [eq_comm]

end ValuePath.Binary64
