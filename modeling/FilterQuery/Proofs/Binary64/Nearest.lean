import FilterQuery.Json.Basic
import FilterQuery.Proofs.Binary64.Bounds

/-!
# Rounding is to the nearest

No magnitude lies nearer to a quotient than the one that the quotient is rounded to.  Hence rounding
keeps the order, and the place of the first digit of a shortest decimal tells on which side of a
power of ten the magnitude lies.
-/

namespace FilterQuery

namespace Magnitude

variable {numerator denominator : Nat} {x y : Magnitude}

/-- A magnitude is a multiple of a unit, unless it is too small for a significand in that unit, and
then it is too small by half a unit at least. -/
theorem toRat_in_unit (y : Magnitude) (unit : Int) :
    (∃ multiple : Nat, y.toRat = multiple * 2 ^ unit) ∨
      (-1074 < unit ∧ y.toRat ≤ 2 ^ 52 * 2 ^ unit - 2 ^ unit / 2) := by
  rcases lt_or_ge y.exponent unit with below | above
  · have least := y.exponent_ge
    refine Or.inr ⟨by omega, ?_⟩
    have significand_le : (y.significand : ℚ) ≤ 2 ^ 53 - 1 := by
      rw [le_sub_iff_add_le]
      exact_mod_cast y.significand_lt
    have power_le : (2 : ℚ) ^ y.exponent ≤ 2 ^ unit / 2 :=
      calc (2 : ℚ) ^ y.exponent ≤ 2 ^ (unit - 1) := zpow_le_zpow_right₀ one_le_two (by omega)
        _ = 2 ^ unit / 2 := zpow_sub_one₀ two_ne_zero unit
    calc y.toRat ≤ (2 ^ 53 - 1) * (2 ^ unit / 2) :=
          mul_le_mul significand_le power_le (by positivity) (by norm_num)
      _ = 2 ^ 52 * 2 ^ unit - 2 ^ unit / 2 := by ring
  · refine Or.inl ⟨y.significand * 2 ^ (y.exponent - unit).toNat, ?_⟩
    have split : (2 : ℚ) ^ y.exponent = 2 ^ (y.exponent - unit).toNat * 2 ^ unit := by
      rw [← zpow_natCast, Int.toNat_of_nonneg (by omega), ← zpow_add₀ two_ne_zero, sub_add_cancel]
    rw [toRat, split]
    push_cast
    ring

/-- A quotient lies on the side of the magnitude that it is rounded to, of the middle between that
magnitude and any other. -/
theorem ofRatio?_middle (nonzero : numerator ≠ 0) (positive : 0 < denominator)
    (read : ofRatio? numerator denominator = some x) (y : Magnitude) :
    (y.toRat < x.toRat → y.toRat + x.toRat ≤ 2 * (numerator / denominator)) ∧
      (x.toRat < y.toRat → 2 * (numerator / denominator : ℚ) ≤ x.toRat + y.toRat) := by
  obtain ⟨above, below⟩ := ofRatio?_bounds positive read
  obtain ⟨order_le, _⟩ := binaryOrder_spec nonzero positive
  have x_eq := toRat_ofRatio? nonzero positive read
  have normal := (nearestInUnit_unitOf nonzero positive).2
  have order_eq := unitOf_cases numerator denominator
  generalize unitOf numerator denominator = unit at *
  generalize nearestInUnit numerator denominator unit = nearest at *
  have scale : (0 : ℚ) < 2 ^ unit := by positivity
  rcases y.toRat_in_unit unit with ⟨multiple, y_eq⟩ | ⟨notLeast, short⟩
  · -- Two multiples of the unit are apart by the unit.
    have apart {lower upper : Nat} (less : (lower : ℚ) * 2 ^ unit < upper * 2 ^ unit) :
        (lower : ℚ) * 2 ^ unit + 2 ^ unit ≤ upper * 2 ^ unit := by
      have next : (lower : ℚ) + 1 ≤ upper := by
        exact_mod_cast (mul_lt_mul_iff_of_pos_right scale).mp less
      calc (lower : ℚ) * 2 ^ unit + 2 ^ unit = (lower + 1) * 2 ^ unit := by ring
        _ ≤ upper * 2 ^ unit := by gcongr
    constructor
    · intro less
      rw [x_eq, y_eq] at less
      have gap := apart less
      rw [← x_eq, ← y_eq] at gap
      linarith
    · intro less
      rw [x_eq, y_eq] at less
      have gap := apart less
      rw [← x_eq, ← y_eq] at gap
      linarith
  · have quotient_ge : (2 : ℚ) ^ 52 * 2 ^ unit ≤ numerator / denominator := by
      rw [← order_eq.resolve_left notLeast.ne', zpow_add₀ two_ne_zero, mul_comm] at order_le
      exact order_le
    have x_ge : (2 : ℚ) ^ 52 * 2 ^ unit ≤ x.toRat := by
      rw [x_eq]
      gcongr
      exact_mod_cast normal.resolve_left notLeast.ne'
    constructor
    · intro
      linarith
    · intro
      linarith

/-- A quotient that is at most a magnitude is not rounded to a larger one. -/
theorem toRat_ofRatio?_le (nonzero : numerator ≠ 0) (positive : 0 < denominator)
    (read : ofRatio? numerator denominator = some x) (le : (numerator / denominator : ℚ) ≤ y.toRat) :
    x.toRat ≤ y.toRat := by
  by_contra less
  have middle := (ofRatio?_middle nonzero positive read y).1 (not_le.mp less)
  linarith

/-- Equal quotients are rounded alike. -/
theorem ofRatio?_congr {other divisor : Nat} (positive : 0 < denominator)
    (otherPositive : 0 < divisor) (same : (numerator / denominator : ℚ) = other / divisor) :
    ofRatio? numerator denominator = ofRatio? other divisor := by
  rw [div_eq_div_iff (by exact_mod_cast positive.ne') (by exact_mod_cast otherPositive.ne')] at same
  have cross : numerator * divisor = other * denominator := by exact_mod_cast same
  rw [← ofRatio?_mul_right positive otherPositive, cross, Nat.mul_comm denominator,
    ofRatio?_mul_right otherPositive positive]

/-- Rounding keeps the order: otherwise both quotients would lie in the middle of what they are
rounded to, and be equal. -/
theorem ofRatio?_mono {other divisor : Nat} (nonzero : numerator ≠ 0) (positive : 0 < denominator)
    (otherNonzero : other ≠ 0) (otherPositive : 0 < divisor)
    (read : ofRatio? numerator denominator = some x) (readOther : ofRatio? other divisor = some y)
    (le : (numerator / denominator : ℚ) ≤ other / divisor) : x.toRat ≤ y.toRat := by
  by_contra reversed
  rw [not_le] at reversed
  have middle := (ofRatio?_middle nonzero positive read y).1 reversed
  have otherMiddle := (ofRatio?_middle otherNonzero otherPositive readOther x).2 reversed
  have same : (numerator / denominator : ℚ) = other / divisor := le_antisymm le (by linarith)
  rw [ofRatio?_congr positive otherPositive same, readOther] at read
  cases read
  exact lt_irrefl _ reversed

theorem toRat_injective (same : x.toRat = y.toRat) : x = y := by
  have exact_eq {z : Magnitude} : ofRatio? z.numerator z.denominator = some z :=
    ofRatio?_exact z.denominator_pos rfl
  rw [toRat_eq, toRat_eq] at same
  have alike := ofRatio?_congr x.denominator_pos y.denominator_pos same
  rw [exact_eq, exact_eq] at alike
  exact Option.some.inj alike

end Magnitude

namespace Decimal

variable {d other : Decimal} {x y : Magnitude}

/-- A decimal fraction that is at most a magnitude is not rounded to a larger one. -/
theorem toRat_nearest?_le (read : d.nearest? = some x) (nonzero : x.rank ≠ 0)
    (le : d.toRat ≤ y.toRat) : x.toRat ≤ y.toRat := by
  rw [← ratio_eq] at le
  exact Magnitude.toRat_ofRatio?_le (ratio_ne_zero read nonzero) (Nat.pow_pos (by decide))
    (ofRatio?_of_nearest? read nonzero) le

/-- Rounding keeps the order of decimal fractions. -/
theorem nearest?_mono (read : d.nearest? = some x) (nonzero : x.rank ≠ 0)
    (readOther : other.nearest? = some y) (otherNonzero : y.rank ≠ 0) (le : d.toRat ≤ other.toRat) :
    x.toRat ≤ y.toRat := by
  rw [← ratio_eq, ← ratio_eq] at le
  exact Magnitude.ofRatio?_mono (ratio_ne_zero read nonzero) (Nat.pow_pos (by decide))
    (ratio_ne_zero readOther otherNonzero) (Nat.pow_pos (by decide))
    (ofRatio?_of_nearest? read nonzero) (ofRatio?_of_nearest? readOther otherNonzero) le

/-- A decimal fraction lies between the power of ten of its first digit and the next one. -/
theorem leadingPlace_bounds (nonzero : d.coefficient ≠ 0) :
    (10 : ℚ) ^ d.leadingPlace ≤ d.toRat ∧ d.toRat < 10 ^ (d.leadingPlace + 1) := by
  obtain ⟨others, length_eq⟩ : ∃ others, (digitsOf d.coefficient).length = others + 1 :=
    Nat.exists_eq_add_one.mpr (List.length_pos_iff.mpr Nat.toDigits_ne_nil)
  have below : d.coefficient < 10 ^ (others + 1) :=
    (Nat.length_toDigits_le_iff (by decide) (Nat.succ_pos others)).mp length_eq.le
  have above : 10 ^ others ≤ d.coefficient := by
    cases others with
    | zero => exact Nat.one_le_iff_ne_zero.mpr nonzero
    | succ more =>
        rw [← Nat.not_lt, ← Nat.length_toDigits_le_iff (by decide) (Nat.succ_pos more)]
        exact Nat.not_le.mpr (length_eq ▸ Nat.lt_succ_self _)
  have place_eq : d.leadingPlace = others + d.exponent := by
    rw [leadingPlace, length_eq]
    omega
  have scale : (0 : ℚ) < 10 ^ d.exponent := by positivity
  rw [toRat, place_eq]
  constructor
  · rw [zpow_add₀ (by norm_num), zpow_natCast]
    gcongr
    exact_mod_cast above
  · rw [add_right_comm, zpow_add₀ (by norm_num)]
    gcongr
    exact_mod_cast below

end Decimal

/-- The place of the first digit of a shortest decimal tells whether a magnitude reaches a power of
ten, if the magnitude that the power is rounded to does, and its first digit has the same place. -/
theorem Magnitude.le_leadingPlace_shortest_iff {tie : Tie} {x y : Magnitude} {place : Int}
    (nonzero : x.rank ≠ 0) (power : Decimal.nearest? ⟨1, place⟩ = some y) (notTiny : y.rank ≠ 0)
    (reaches : (10 : ℚ) ^ place ≤ y.toRat) (place_eq : (y.shortest tie).leadingPlace = place) :
    place ≤ (x.shortest tie).leadingPlace ↔ (10 : ℚ) ^ place ≤ x.toRat := by
  have read := x.nearest?_shortest tie
  have power_eq : (⟨1, place⟩ : Decimal).toRat = 10 ^ place := by
    rw [Decimal.toRat, Nat.cast_one, one_mul]
  obtain ⟨above, below⟩ := Decimal.leadingPlace_bounds (Decimal.coefficient_ne_zero read nonzero)
  constructor
  · intro le
    have larger : (⟨1, place⟩ : Decimal).toRat ≤ (x.shortest tie).toRat := by
      rw [power_eq]
      exact (zpow_le_zpow_right₀ (by norm_num) le).trans above
    exact reaches.trans (Decimal.nearest?_mono power notTiny read nonzero larger)
  · intro le
    by_contra less
    have smaller : (x.shortest tie).toRat ≤ (⟨1, place⟩ : Decimal).toRat := by
      rw [power_eq]
      exact below.le.trans (zpow_le_zpow_right₀ (by norm_num) (by omega))
    have x_le := Decimal.nearest?_mono read nonzero power notTiny smaller
    have le_x := Decimal.toRat_nearest?_le power notTiny (power_eq.trans_le le)
    rw [toRat_injective (le_antisymm x_le le_x)] at less
    exact less place_eq.ge

end FilterQuery
