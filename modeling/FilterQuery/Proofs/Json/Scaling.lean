import FilterQuery.Json.Basic
import FilterQuery.Proofs.Binary64.Bounds
import FilterQuery.Proofs.Text.Digits

/-!
# Numbers of JSON texts in range

A number text is read in three rounding steps: its significand, the power of ten and their product
or quotient.  Each step is off by half a unit at most.  So a text that stands for a number which
stays two roundings below the limit is read as some number.
-/

namespace FilterQuery

namespace Magnitude

/-- From here on there is nothing to round to. -/
def limit : ℚ :=
  2 ^ 1024 - 2 ^ 970

/-- What one rounding of a number that is at least one can add to it, as a factor. -/
def slack : ℚ :=
  1 + 1 / 2 ^ 53

theorem one_le_slack : 1 ≤ slack := by
  rw [slack]
  norm_num

theorem slack_le_two : slack ≤ 2 := by
  rw [slack]
  norm_num

theorem toRat_nonneg (x : Magnitude) : 0 ≤ x.toRat := by
  unfold toRat
  positivity

theorem limit_gt : (2 : ℚ) ^ 1023 < limit := by
  have double : (2 : ℚ) ^ 1024 = 2 ^ 1023 * 2 := pow_succ 2 1023
  have smaller : (2 : ℚ) ^ 970 < 2 ^ 1023 := pow_lt_pow_right₀ one_lt_two (by decide)
  rw [limit, double]
  generalize (2 : ℚ) ^ 1023 = half at smaller ⊢
  generalize (2 : ℚ) ^ 970 = step at smaller ⊢
  linarith

/-- A natural number below the limit is rounded to a magnitude that exceeds it by one rounding at
most and is at least half of it. -/
theorem exists_ofRatio?_nat {n : Nat} (bounded : n + 2 ^ 970 < 2 ^ 1024) :
    ∃ x, ofRatio? n 1 = some x ∧ x.toRat ≤ n * slack ∧ (n : ℚ) / 2 ≤ x.toRat := by
  have boundedRat : (n : ℚ) / (1 : Nat) < 2 ^ 1024 - 2 ^ 970 := by
    rw [Nat.cast_one, div_one, lt_sub_iff_add_lt]
    exact_mod_cast bounded
  obtain ⟨x, read⟩ := exists_ofRatio? Nat.one_pos boundedRat
  refine ⟨x, read, ?_⟩
  by_cases nothing : n = 0
  · rw [ofRatio?, if_pos nothing] at read
    cases read
    simp [nothing, toRat_zero]
  · have large : (1 : ℚ) ≤ n / (1 : Nat) := by
      rw [Nat.cast_one, div_one]
      exact_mod_cast Nat.pos_of_ne_zero nothing
    obtain ⟨above, below⟩ := ofRatio?_bounds Nat.one_pos read
    have unit := two_zpow_unitOf_le_div nothing Nat.one_pos large
    rw [Nat.cast_one, div_one] at *
    rw [slack]
    constructor
    · linarith
    · linarith

variable {x y : Magnitude}

theorem mul_ratio (x y : Magnitude) :
    ((x.numerator * y.numerator : Nat) : ℚ) / (x.denominator * y.denominator : Nat) =
      x.toRat * y.toRat := by
  rw [toRat_eq, toRat_eq, Nat.cast_mul, Nat.cast_mul, div_mul_div_comm]

theorem div_ratio (x y : Magnitude) :
    ((x.numerator * y.denominator : Nat) : ℚ) / (x.denominator * y.numerator : Nat) =
      x.toRat / y.toRat := by
  rw [toRat_eq, toRat_eq, Nat.cast_mul, Nat.cast_mul, div_div_div_eq]

theorem exists_mul? (small : x.toRat * y.toRat < limit) : ∃ z, x.mul? y = some z := by
  refine exists_ofRatio? (Nat.mul_pos x.denominator_pos y.denominator_pos) ?_
  rw [mul_ratio]
  exact small

theorem exists_div? (positive : 0 < y.toRat) (small : x.toRat / y.toRat < limit) :
    ∃ z, x.div? y = some z ∧ z.toRat ≤ 2 * (x.toRat / y.toRat) + 1 := by
  have numerator_pos : 0 < y.numerator := by
    apply Nat.pos_of_ne_zero
    intro vanishes
    rw [toRat_eq, vanishes, Nat.cast_zero, zero_div] at positive
    exact positive.false
  have divisor := Nat.mul_pos x.denominator_pos numerator_pos
  obtain ⟨z, read⟩ := exists_ofRatio? divisor (by rw [div_ratio]; exact small)
  refine ⟨z, read, ?_⟩
  have ratio_nonneg : 0 ≤ x.toRat / y.toRat := div_nonneg x.toRat_nonneg y.toRat_nonneg
  by_cases nothing : x.numerator * y.denominator = 0
  · rw [ofRatio?, if_pos nothing] at read
    cases read
    rw [toRat_zero]
    linarith
  · obtain ⟨above, _⟩ := ofRatio?_bounds divisor read
    have unit := two_zpow_unitOf_le_add nothing divisor
    rw [div_ratio] at above unit
    linarith

end Magnitude

open Magnitude

namespace NumberParts

/-- A power of ten that a scaling is done by in one step. -/
theorem exists_power {exponent : Nat} (near : exponent ≤ maxScale) :
    ∃ power, Decimal.nearest? ⟨1, exponent⟩ = some power ∧
      power.toRat ≤ 10 ^ exponent * slack ∧ 10 ^ exponent / 2 ≤ power.toRat := by
  have each : ∀ exponent ≤ maxScale, 10 ^ exponent + 2 ^ 970 < 2 ^ 1024 := by decide +kernel
  have ratio := @Decimal.nearest?_eq_ofRatio? 1 exponent one_ne_zero
    (by unfold maxScale at near; omega) (by omega)
  obtain ⟨power, read, above, below⟩ := exists_ofRatio?_nat (each exponent near)
  rw [Nat.cast_pow, Nat.cast_ofNat] at above below
  refine ⟨power, ?_, above, below⟩
  rw [ratio, one_mul, Int.toNat_natCast, Int.toNat_of_nonpos (by omega), pow_zero, read]

/-- A scaling in one step. -/
theorem scale?_near {exponent : Int} {size : Nat} (isSize : exponent.natAbs = size)
    (near : size ≤ maxScale) {power : Magnitude}
    (isPower : Decimal.nearest? ⟨1, size⟩ = some power) (x : Magnitude) :
    scale? x exponent = if 0 ≤ exponent then x.mul? power else x.div? power := by
  rw [scale?, isSize, if_pos near, isPower]
  rfl

theorem div_le_of_half_le {x y : Magnitude} (half : 1 / 2 ≤ y.toRat) :
    x.toRat / y.toRat ≤ 2 * x.toRat := by
  rw [div_le_iff₀ (by linarith)]
  calc x.toRat = 2 * x.toRat * (1 / 2) := by ring
    _ ≤ 2 * x.toRat * y.toRat :=
        mul_le_mul_of_nonneg_left half (mul_nonneg zero_le_two x.toRat_nonneg)

theorem four_mul_lt_limit : 4 * (2 : ℚ) ^ 1000 < limit := by
  have double : (2 : ℚ) ^ 1002 = 2 ^ 1000 * 2 ^ 2 := pow_add 2 1000 2
  calc 4 * (2 : ℚ) ^ 1000 = 2 ^ 1000 * 2 ^ 2 := by rw [mul_comm]; norm_num
    _ = 2 ^ 1002 := double.symm
    _ < 2 ^ 1023 := pow_lt_pow_right₀ one_lt_two (by decide)
    _ < limit := limit_gt

/-- Scaling down does not leave the range. -/
theorem exists_scale?_of_nonpos {x : Magnitude} {exponent : Int} (down : exponent ≤ 0)
    (bounded : x.toRat ≤ 2 ^ 1000) : ∃ y, scale? x exponent = some y := by
  have room := four_mul_lt_limit
  have two_le : (2 : ℚ) ≤ 2 ^ 1000 := le_self_pow₀ one_le_two (by decide)
  generalize (2 : ℚ) ^ 1000 = bound at bounded room two_le
  induction size : exponent.natAbs using Nat.strongRecOn generalizing x exponent with
  | ind _ ih =>
      by_cases near : exponent.natAbs ≤ maxScale
      · obtain ⟨power, isPower, above, below⟩ := exists_power near
        have one_le_power : (1 : ℚ) ≤ 10 ^ exponent.natAbs := one_le_pow₀ (by norm_num)
        rw [scale?_near rfl near isPower]
        split
        · have none_left : exponent.natAbs = 0 := by omega
          rw [none_left, pow_zero, one_mul] at above
          have small : power.toRat ≤ 2 := above.trans slack_le_two
          apply exists_mul?
          calc x.toRat * power.toRat ≤ bound * 2 :=
                mul_le_mul bounded small power.toRat_nonneg (by linarith)
            _ < limit := by linarith
        · have half : 1 / 2 ≤ power.toRat := by linarith
          have quotient_le := @div_le_of_half_le x _ half
          obtain ⟨y, divided, _⟩ := @exists_div? x power (by linarith) (by linarith)
          exact ⟨y, divided⟩
      · rw [scale?, if_neg near]
        split
        · exact ⟨x, rfl⟩
        · have negative : ¬ 0 ≤ exponent := by
            unfold maxScale at near
            omega
          obtain ⟨power, isPower, _, below⟩ := @exists_power maxScale (Nat.le_refl _)
          have eight_le : (8 : ℚ) ≤ 10 ^ maxScale :=
            calc (8 : ℚ) ≤ 10 := by norm_num
              _ ≤ 10 ^ maxScale := le_self_pow₀ (by norm_num) (by decide)
          have four_le : 4 ≤ power.toRat := by linarith
          have quotient_le : x.toRat / power.toRat ≤ bound / 4 :=
            div_le_div₀ (by linarith) bounded (by norm_num) four_le
          obtain ⟨y, divided, y_le⟩ := @exists_div? x power (by linarith) (by linarith)
          have closer : exponent + maxScale ≤ 0 := by
            unfold maxScale at near ⊢
            omega
          have shrinks : (exponent + maxScale).natAbs < exponent.natAbs := by
            unfold maxScale at near ⊢
            omega
          obtain ⟨z, scaled⟩ := ih _ (size ▸ shrinks) closer (by linarith) rfl
          rw [if_neg negative, isPower]
          simp only [Option.bind_eq_bind, Option.bind_some, divided]
          exact ⟨z, scaled⟩

/-- Scaling up does not leave the range when the product stays one rounding below the limit. -/
theorem exists_scale?_of_nonneg {x : Magnitude} {exponent : Nat} (near : exponent ≤ maxScale)
    (small : x.toRat * (10 ^ exponent * slack) < limit) : ∃ y, scale? x exponent = some y := by
  obtain ⟨power, isPower, above, _⟩ := exists_power near
  rw [scale?_near (Int.natAbs_natCast _) near isPower, if_pos (Int.natCast_nonneg _)]
  apply exists_mul?
  exact (mul_le_mul_of_nonneg_left above x.toRat_nonneg).trans_lt small

/-! ## Significands -/

theorem le_valueOfDigits (digits : List Char) (start : Nat) :
    start ≤ valueOfDigits digits start := by
  rw [valueOfDigits_start]
  exact Nat.le_add_right_of_le (Nat.le_mul_of_pos_right _ (Nat.pow_pos (by decide)))

/-- The digits that are collected are the first ones, as many as fit into 64 bits. -/
theorem appendDigits_spec {word : Nat} (fits : word < 2 ^ 64) (digits : List Char) :
    ∃ used unused, digits = used ++ unused ∧
      appendDigits word digits = (valueOfDigits used word, unused) ∧
      valueOfDigits used word < 2 ^ 64 := by
  induction digits generalizing word with
  | nil => exact ⟨[], [], rfl, rfl, fits⟩
  | cons digit digits ih =>
      rw [appendDigits]
      split
      · next nextFits =>
          obtain ⟨used, unused, rfl, appended, usedFits⟩ := ih nextFits
          exact ⟨digit :: used, unused, rfl, appended, usedFits⟩
      · exact ⟨[], digit :: digits, rfl, rfl, fits⟩

/-- Digits whose value fits into 64 bits are all collected. -/
theorem appendDigits_whole {word : Nat} {digits : List Char}
    (fits : valueOfDigits digits word < 2 ^ 64) :
    appendDigits word digits = (valueOfDigits digits word, []) := by
  induction digits generalizing word with
  | nil => rfl
  | cons digit digits ih =>
      have nextFits : valueOfDigits [digit] word < Nat.pow 2 64 :=
        Nat.lt_of_le_of_lt (le_valueOfDigits digits _) fits
      rw [appendDigits, if_pos nextFits]
      exact ih fits

variable {parts : NumberParts}

/-- The significand is made of the whole part, if that fits, and of the first digits behind the
point. -/
theorem significand_spec (short : valueOfDigits parts.whole 0 < 2 ^ 64) :
    ∃ used unused, parts.fraction.getD [] = used ++ unused ∧
      valueOfDigits (parts.whole ++ used) 0 < 2 ^ 64 ∧
      parts.significand =
        ⟨valueOfDigits (parts.whole ++ used) 0, parts.statedExponent - used.length⟩ := by
  obtain ⟨used, unused, split, appended, fits⟩ :=
    appendDigits_spec short (parts.fraction.getD [])
  rw [← valueOfDigits_append] at appended fits
  refine ⟨used, unused, split, fits, ?_⟩
  simp only [significand, appendDigits_whole short, appended]
  rw [split, List.length_append, List.length_nil, Nat.cast_zero, add_zero, Nat.add_sub_cancel]

/-- The number that a number text stands for. -/
def value (parts : NumberParts) : ℚ :=
  valueOfDigits (parts.whole ++ parts.fraction.getD []) 0 *
    10 ^ (parts.statedExponent - (parts.fraction.getD []).length)

/-- Digits that are dropped only make a number smaller. -/
theorem significand_le_value (short : valueOfDigits parts.whole 0 < 2 ^ 64) :
    (parts.significand.coefficient : ℚ) * 10 ^ parts.significand.exponent ≤ parts.value := by
  obtain ⟨used, unused, split, _, significand_eq⟩ := significand_spec short
  have longer : valueOfDigits (parts.whole ++ used) 0 * 10 ^ unused.length ≤
      valueOfDigits (parts.whole ++ used ++ unused) 0 := by
    rw [valueOfDigits_append _ unused, valueOfDigits_start unused]
    exact Nat.le_add_right _ _
  rw [significand_eq, value, split, ← List.append_assoc, List.length_append]
  have shifted : (10 : ℚ) ^ (parts.statedExponent - used.length) =
      10 ^ unused.length * 10 ^ (parts.statedExponent - (used.length + unused.length : Nat)) := by
    rw [← zpow_natCast, ← zpow_add₀ (by norm_num)]
    congr 1
    omega
  rw [shifted, ← mul_assoc]
  gcongr
  exact_mod_cast longer

/-- A word of 64 bits is rounded to a magnitude that exceeds it by one rounding at most. -/
theorem exists_word {word : Nat} (fits : word < 2 ^ 64) :
    ∃ x, Decimal.nearest? ⟨word, 0⟩ = some x ∧ x.toRat ≤ word * slack := by
  have bounded : word + 2 ^ 970 < 2 ^ 1024 := by
    have room : 2 ^ 64 + 2 ^ 970 < 2 ^ 1024 := by decide +kernel
    omega
  obtain ⟨x, read, x_le, _⟩ := exists_ofRatio?_nat bounded
  refine ⟨x, ?_, x_le⟩
  by_cases nothing : word = 0
  · rw [Decimal.nearest?, if_pos nothing, ← read, ofRatio?, if_pos nothing]
  · rw [Decimal.nearest?_eq_ofRatio? nothing (by decide) (by omega), ← read, Int.toNat_zero,
      Int.neg_zero, Int.toNat_zero, pow_zero, mul_one]

/-- A number text is read as some number when the number it stands for stays two roundings below
the limit. -/
theorem exists_toFloat? (short : valueOfDigits parts.whole 0 < 2 ^ 64)
    (small : parts.value * slack * slack < limit) :
    ∃ y, parts.toFloat? = some (.float parts.negative y) := by
  have below := significand_le_value short
  have fits : parts.significand.coefficient < 2 ^ 64 := by
    obtain ⟨_, _, _, fits, significand_eq⟩ := significand_spec short
    rw [significand_eq]
    exact fits
  rw [toFloat?]
  generalize parts.significand.coefficient = word at *
  generalize parts.significand.exponent = exponent at *
  obtain ⟨x, isWord, x_le⟩ := exists_word fits
  suffices scales : ∃ y, scale? x exponent = some y by
    obtain ⟨y, scaled⟩ := scales
    refine ⟨y, ?_⟩
    simp only [Option.bind_eq_bind, Option.bind_some, Option.pure_def, isWord, scaled]
  have slack_nonneg : 0 ≤ slack := zero_le_one.trans one_le_slack
  rcases Int.le_total exponent 0 with down | up
  · have word_le : (word : ℚ) ≤ 2 ^ 64 := by exact_mod_cast fits.le
    refine exists_scale?_of_nonpos down (x_le.trans ?_)
    calc (word : ℚ) * slack ≤ 2 ^ 64 * 2 :=
          mul_le_mul word_le slack_le_two slack_nonneg (by positivity)
      _ = 2 ^ 65 := (pow_succ 2 64).symm
      _ ≤ 2 ^ 1000 := pow_le_pow_right₀ one_le_two (by decide)
  · obtain ⟨size, rfl⟩ := Int.eq_ofNat_of_zero_le up
    rw [zpow_natCast] at below
    by_cases near : size ≤ maxScale
    · refine exists_scale?_of_nonneg near ?_
      calc x.toRat * (10 ^ size * slack) ≤ word * slack * (10 ^ size * slack) := by
            gcongr
        _ = word * 10 ^ size * slack * slack := by ring
        _ ≤ parts.value * slack * slack := by gcongr
        _ < limit := small
    · -- A power of ten that needs several steps is beyond the limit, unless nothing is scaled.
      have nothing : word = 0 := by
        by_contra something
        have power_ge : (2 : ℚ) ^ 1024 ≤ 10 ^ size := by
          have enough : 2 ^ 1024 ≤ 10 ^ (maxScale + 1) := by decide +kernel
          exact_mod_cast enough.trans (Nat.pow_le_pow_right (by decide) (Nat.lt_of_not_le near))
        have power_le : (10 : ℚ) ^ size ≤ word * 10 ^ size := by
          apply le_mul_of_one_le_left (by positivity)
          exact_mod_cast Nat.pos_of_ne_zero something
        have value_ge := power_ge.trans (power_le.trans below)
        have value_nonneg : 0 ≤ parts.value := le_trans (by positivity) value_ge
        have value_le : parts.value ≤ parts.value * slack * slack :=
          (le_mul_of_one_le_right value_nonneg one_le_slack).trans
            (le_mul_of_one_le_right (mul_nonneg value_nonneg slack_nonneg) one_le_slack)
        have below_limit : limit < 2 ^ 1024 := sub_lt_self _ (by positivity)
        exact absurd (value_ge.trans value_le) (not_le.mpr (small.trans below_limit))
      rw [nothing] at isWord
      cases isWord
      have rank_zero : Magnitude.zero.rank = 0 := rfl
      refine ⟨Magnitude.zero, ?_⟩
      rw [scale?, Int.natAbs_natCast, if_neg near, if_pos rank_zero]

end NumberParts

end FilterQuery
