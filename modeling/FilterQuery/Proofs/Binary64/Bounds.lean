import Mathlib.Tactic.FieldSimp
import Mathlib.Tactic.Linarith
import FilterQuery.Proofs.Binary64.Rounding

/-!
# How far rounding goes

A rounded quotient lies within half a unit of the quotient, and the unit is at most `2 ^ -52` of it
unless the quotient is tiny.  A quotient is rounded to something unless it comes within half a unit
of `2 ^ 1024`.
-/

namespace FilterQuery

/-- An integer nearest to a quotient is at most one half away from it. -/
theorem nearestEven_bounds (numerator : Nat) {denominator : Nat} (positive : 0 < denominator) :
    2 * (denominator * nearestEven numerator denominator) ≤ 2 * numerator + denominator ∧
      2 * numerator ≤ 2 * (denominator * nearestEven numerator denominator) + denominator := by
  have parts := Nat.div_add_mod numerator denominator
  have rest_lt := Nat.mod_lt numerator positive
  have step : denominator * (numerator / denominator + 1) =
      denominator * (numerator / denominator) + denominator := Nat.mul_succ _ _
  unfold nearestEven
  dsimp only
  split
  · omega
  · split
    · omega
    · rcases Nat.mod_two_eq_zero_or_one (numerator / denominator) with even | odd
      · rw [even, Nat.add_zero]
        omega
      · rw [odd]
        omega

/-- A quotient in a unit is at most half a unit away from what it is rounded to. -/
theorem nearestInUnit_bounds {numerator denominator : Nat} (positive : 0 < denominator)
    (unit : Int) :
    (nearestInUnit numerator denominator unit : ℚ) * 2 ^ unit ≤
        numerator / denominator + 2 ^ unit / 2 ∧
      (numerator / denominator : ℚ) ≤
        nearestInUnit numerator denominator unit * 2 ^ unit + 2 ^ unit / 2 := by
  obtain ⟨above, below⟩ := nearestEven_bounds (numerator * 2 ^ (-unit).toNat)
    (Nat.mul_pos positive (Nat.two_pow_pos unit.toNat))
  have divisor : (0 : ℚ) < denominator := by exact_mod_cast positive
  have up : (0 : ℚ) < 2 ^ unit.toNat := by positivity
  have down : (0 : ℚ) < 2 ^ (-unit).toNat := by positivity
  change 2 * (denominator * 2 ^ unit.toNat * nearestInUnit numerator denominator unit) ≤ _ at above
  change _ ≤ 2 * (denominator * 2 ^ unit.toNat * nearestInUnit numerator denominator unit) + _
    at below
  generalize nearestInUnit numerator denominator unit = nearest at above below ⊢
  have aboveRat : 2 * ((denominator : ℚ) * 2 ^ unit.toNat * nearest) ≤
      2 * (numerator * 2 ^ (-unit).toNat) + denominator * 2 ^ unit.toNat := by
    exact_mod_cast above
  have belowRat : 2 * ((numerator : ℚ) * 2 ^ (-unit).toNat) ≤
      2 * (denominator * 2 ^ unit.toNat * nearest) + denominator * 2 ^ unit.toNat := by
    exact_mod_cast below
  rw [two_zpow_eq]
  generalize (2 : ℚ) ^ unit.toNat = scaleUp at *
  generalize (2 : ℚ) ^ (-unit).toNat = scaleDown at *
  constructor
  · field_simp
    linarith
  · field_simp
    linarith

namespace Magnitude

/-- The power of two in which a quotient is rounded. -/
def unitOf (numerator denominator : Nat) : Int :=
  max (binaryOrder numerator denominator - 52) (-1074)

theorem unitOf_ge (numerator denominator : Nat) : -1074 ≤ unitOf numerator denominator :=
  Int.le_max_right _ _

/-- The value of a magnitude whose rank is written as so many units below its own and a
significand, which may have carried over into the next unit. -/
theorem toRat_of_rank {x : Magnitude} {unit : Int} {nearest : Nat} (least : -1074 ≤ unit)
    (rank : x.rank = (unit + 1074).toNat * 2 ^ 52 + nearest) (carries : nearest ≤ 2 ^ 53)
    (normal : unit = -1074 ∨ 2 ^ 52 ≤ nearest) : x.toRat = nearest * 2 ^ unit := by
  rcases Nat.lt_or_ge nearest (2 ^ 52) with small | large
  · obtain rfl : unit = -1074 := normal.resolve_right (Nat.not_le.mpr small)
    have below : x.rank < Nat.pow 2 52 := by
      rw [rank, Nat.pow_eq]
      omega
    have rank_eq : x.rank = nearest := by omega
    rw [toRat, significand, exponent, if_pos below, if_pos below, rank_eq]
  · have above : ¬ x.rank < Nat.pow 2 52 := by
      rw [rank, Nat.pow_eq]
      omega
    rw [toRat, significand, exponent, if_neg above, if_neg above, Nat.pow_eq, rank]
    rcases Nat.lt_or_eq_of_le carries with inside | full
    · have significand_eq : 2 ^ 52 + ((unit + 1074).toNat * 2 ^ 52 + nearest) % 2 ^ 52 =
          nearest := by omega
      have exponent_eq : ((((unit + 1074).toNat * 2 ^ 52 + nearest) / 2 ^ 52 : Nat) : Int) - 1075 =
          unit := by omega
      rw [significand_eq, exponent_eq]
    · have significand_eq : 2 ^ 52 + ((unit + 1074).toNat * 2 ^ 52 + nearest) % 2 ^ 52 =
          2 ^ 52 := by omega
      have exponent_eq : ((((unit + 1074).toNat * 2 ^ 52 + nearest) / 2 ^ 52 : Nat) : Int) - 1075 =
          1 + unit := by omega
      rw [significand_eq, exponent_eq, full, zpow_add₀ two_ne_zero]
      push_cast
      ring

variable {numerator denominator : Nat}

/-- The unit of a quotient is the least one or fifty-two powers of two below the quotient. -/
theorem unitOf_cases (numerator denominator : Nat) :
    unitOf numerator denominator = -1074 ∨
      unitOf numerator denominator + 52 = binaryOrder numerator denominator := by
  unfold unitOf
  omega

/-- A quotient in its unit has at most as many bits as a significand, and as many of them unless the
unit is the least one. -/
theorem nearestInUnit_unitOf (nonzero : numerator ≠ 0) (positive : 0 < denominator) :
    nearestInUnit numerator denominator (unitOf numerator denominator) ≤ 2 ^ 53 ∧
      (unitOf numerator denominator = -1074 ∨
        2 ^ 52 ≤ nearestInUnit numerator denominator (unitOf numerator denominator)) := by
  obtain ⟨above, below⟩ := binaryOrder_spec nonzero positive
  obtain ⟨nearest_le, le_nearest⟩ :=
    @nearestInUnit_bounds numerator _ positive (unitOf numerator denominator)
  have order_lt : binaryOrder numerator denominator + 1 ≤ 53 + unitOf numerator denominator := by
    unfold unitOf
    omega
  have cases_unit := unitOf_cases numerator denominator
  generalize unitOf numerator denominator = unit at *
  generalize nearestInUnit numerator denominator unit = nearest at *
  have scale : (0 : ℚ) < 2 ^ unit := by positivity
  constructor
  · by_contra beyond
    have larger : ((2 : ℚ) ^ 53 + 1) * 2 ^ unit ≤ nearest * 2 ^ unit := by
      gcongr
      exact_mod_cast Nat.lt_of_not_le beyond
    have quotient_lt : (numerator / denominator : ℚ) < 2 ^ 53 * 2 ^ unit :=
      calc (numerator / denominator : ℚ) < 2 ^ (binaryOrder numerator denominator + 1) := below
        _ ≤ 2 ^ (53 + unit) := zpow_le_zpow_right₀ one_le_two order_lt
        _ = 2 ^ 53 * 2 ^ unit := zpow_add₀ two_ne_zero _ _
    linarith
  · refine cases_unit.imp_right fun order_eq => ?_
    by_contra short
    have smaller : (nearest : ℚ) * 2 ^ unit ≤ (2 ^ 52 - 1) * 2 ^ unit := by
      gcongr
      rw [le_sub_iff_add_le]
      exact_mod_cast Nat.lt_of_not_le short
    have quotient_ge : (2 : ℚ) ^ 52 * 2 ^ unit ≤ numerator / denominator :=
      calc (2 : ℚ) ^ 52 * 2 ^ unit = 2 ^ (52 + unit) := (zpow_add₀ two_ne_zero _ _).symm
        _ = 2 ^ binaryOrder numerator denominator := by rw [← order_eq, add_comm]
        _ ≤ numerator / denominator := above
    linarith

/-- A quotient is rounded in its unit, if there is a magnitude of that rank. -/
theorem ofRatio?_eq (nonzero : numerator ≠ 0) (denominator : Nat) :
    ofRatio? numerator denominator =
      if within : (unitOf numerator denominator + 1074).toNat * 2 ^ 52 +
          nearestInUnit numerator denominator (unitOf numerator denominator) < 2047 * 2 ^ 52 then
        some ⟨_, within⟩
      else none := by
  rw [ofRatio?, if_neg nonzero]
  rfl

/-- A rounded quotient is the quotient rounded in its unit. -/
theorem toRat_ofRatio? (nonzero : numerator ≠ 0) (positive : 0 < denominator) {x : Magnitude}
    (read : ofRatio? numerator denominator = some x) :
    x.toRat = nearestInUnit numerator denominator (unitOf numerator denominator) *
      2 ^ unitOf numerator denominator := by
  obtain ⟨carries, normal⟩ := nearestInUnit_unitOf nonzero positive
  rw [ofRatio?_eq nonzero] at read
  split at read
  · cases read
    exact toRat_of_rank (unitOf_ge _ _) rfl carries normal
  · contradiction

theorem toRat_zero : zero.toRat = 0 := by
  rw [toRat, show zero.significand = 0 from rfl, Nat.cast_zero, zero_mul]

/-- A quotient is at most half a unit away from the magnitude that it is rounded to. -/
theorem ofRatio?_bounds (positive : 0 < denominator) {x : Magnitude}
    (read : ofRatio? numerator denominator = some x) :
    x.toRat ≤ numerator / denominator + 2 ^ unitOf numerator denominator / 2 ∧
      (numerator / denominator : ℚ) ≤ x.toRat + 2 ^ unitOf numerator denominator / 2 := by
  by_cases nothing : numerator = 0
  · rw [ofRatio?, if_pos nothing] at read
    cases read
    have unit : (0 : ℚ) ≤ 2 ^ unitOf numerator denominator / 2 := by positivity
    rw [toRat_zero, nothing, Nat.cast_zero, zero_div, zero_add] at *
    exact ⟨unit, unit⟩
  · rw [toRat_ofRatio? nothing positive read]
    exact nearestInUnit_bounds positive _

/-- A quotient that stays half a unit below `2 ^ 1024` is rounded to something. -/
theorem exists_ofRatio? (positive : 0 < denominator)
    (small : (numerator / denominator : ℚ) < 2 ^ 1024 - 2 ^ 970) :
    ∃ x, ofRatio? numerator denominator = some x := by
  by_cases nothing : numerator = 0
  · exact ⟨zero, by rw [ofRatio?, if_pos nothing]⟩
  · obtain ⟨carries, _⟩ := nearestInUnit_unitOf nothing positive
    obtain ⟨above, _⟩ := binaryOrder_spec nothing positive
    obtain ⟨nearest_le, _⟩ :=
      @nearestInUnit_bounds numerator _ positive (unitOf numerator denominator)
    have order_lt : binaryOrder numerator denominator < (1024 : Nat) := by
      apply (zpow_lt_zpow_iff_right₀ (one_lt_two (α := ℚ))).mp
      calc (2 : ℚ) ^ binaryOrder numerator denominator ≤ numerator / denominator := above
        _ < 2 ^ 1024 - 2 ^ 970 := small
        _ < 2 ^ 1024 := sub_lt_self _ (by positivity)
        _ = 2 ^ ((1024 : Nat) : Int) := (zpow_natCast _ _).symm
    have unit_le : unitOf numerator denominator ≤ 971 := by
      unfold unitOf
      omega
    rw [ofRatio?_eq nothing]
    split
    · exact ⟨_, rfl⟩
    · next beyond =>
        -- Only the carry out of the largest unit could go beyond the last rank.
        have largest : unitOf numerator denominator = 971 := by omega
        have full : nearestInUnit numerator denominator 971 = 2 ^ 53 := by
          rw [largest] at beyond carries
          omega
        have whole : (2 : ℚ) ^ 1024 = 2 ^ 53 * 2 ^ 971 := pow_add 2 53 971
        have half : (2 : ℚ) ^ 971 = 2 ^ 970 * 2 := pow_succ 2 970
        have unit_eq : (2 : ℚ) ^ (971 : Int) = 2 ^ 971 := zpow_natCast 2 971
        rw [largest, full, unit_eq, half, Nat.cast_pow, Nat.cast_ofNat] at nearest_le
        rw [whole, half] at small
        generalize (2 : ℚ) ^ 970 = step at nearest_le small
        linarith

/-- What is rounded to something is rounded in the largest unit at most. -/
theorem unitOf_le (nonzero : numerator ≠ 0) (positive : 0 < denominator) {x : Magnitude}
    (read : ofRatio? numerator denominator = some x) : unitOf numerator denominator ≤ 971 := by
  obtain ⟨_, normal⟩ := nearestInUnit_unitOf nonzero positive
  rw [ofRatio?_eq nonzero] at read
  split at read
  · omega
  · contradiction

/-- The unit of a quotient that is at least one is `2 ^ -52` of it at most. -/
theorem two_zpow_unitOf_le_div (nonzero : numerator ≠ 0) (positive : 0 < denominator)
    (large : (1 : ℚ) ≤ numerator / denominator) :
    (2 : ℚ) ^ unitOf numerator denominator ≤ numerator / denominator / 2 ^ 52 := by
  obtain ⟨above, below⟩ := binaryOrder_spec nonzero positive
  have order_gt : (0 : Int) < binaryOrder numerator denominator + 1 := by
    apply (zpow_lt_zpow_iff_right₀ (one_lt_two (α := ℚ))).mp
    rw [zpow_zero]
    exact large.trans_lt below
  have unit_eq : unitOf numerator denominator + 52 = binaryOrder numerator denominator := by
    unfold unitOf
    omega
  rw [le_div_iff₀ (by positivity)]
  calc (2 : ℚ) ^ unitOf numerator denominator * 2 ^ 52
      = 2 ^ (unitOf numerator denominator + 52) := (zpow_add₀ two_ne_zero _ _).symm
    _ = 2 ^ binaryOrder numerator denominator := by rw [unit_eq]
    _ ≤ numerator / denominator := above

/-- However small a quotient is, its unit exceeds it by at most one. -/
theorem two_zpow_unitOf_le_add (nonzero : numerator ≠ 0) (positive : 0 < denominator) :
    (2 : ℚ) ^ unitOf numerator denominator ≤ numerator / denominator + 1 := by
  obtain ⟨above, _⟩ := binaryOrder_spec nonzero positive
  rcases unitOf_cases numerator denominator with least | order_eq
  · have quotient : (0 : ℚ) ≤ numerator / denominator := by positivity
    have tiny : (2 : ℚ) ^ (-1074 : Int) ≤ 1 := zpow_le_one_of_nonpos₀ one_le_two (by decide)
    rw [least]
    linarith
  · have smaller : (2 : ℚ) ^ unitOf numerator denominator ≤
        2 ^ binaryOrder numerator denominator := by
      apply zpow_le_zpow_right₀ one_le_two
      omega
    linarith

/-- A magnitude that is not among the last two is smaller than the largest one by as many of its
units. -/
theorem toRat_le_of_rank {x : Magnitude} (notLast : x.rank + 2 < 2047 * 2 ^ 52) :
    x.toRat ≤ (2 ^ 53 - 3) * 2 ^ 971 := by
  have rank := x.rank_eq
  have significand_lt := x.significand_lt
  have least := x.exponent_ge
  rw [toRat]
  by_cases largest : x.exponent = 971
  · have significand_le : x.significand + 3 ≤ 2 ^ 53 := by
      rw [largest] at rank
      omega
    have unit_eq : (2 : ℚ) ^ (971 : Int) = 2 ^ 971 := zpow_natCast 2 971
    rw [largest, unit_eq]
    gcongr
    rw [le_sub_iff_add_le]
    exact_mod_cast significand_le
  · have normal : x.exponent = -1074 ∨ 2 ^ 52 ≤ x.significand := by
      by_cases isLeast : x.exponent = -1074
      · exact Or.inl isLeast
      · exact Or.inr (significand_ge isLeast)
    have exponent_le : x.exponent ≤ (970 : Nat) := by omega
    have power_le : (2 : ℚ) ^ x.exponent ≤ 2 ^ 970 := by
      rw [← zpow_natCast]
      exact zpow_le_zpow_right₀ one_le_two exponent_le
    have significand_le : (x.significand : ℚ) ≤ 2 ^ 53 := by exact_mod_cast significand_lt.le
    have double : (2 : ℚ) ^ 971 = 2 ^ 970 * 2 := pow_succ 2 970
    have step : (0 : ℚ) < 2 ^ 970 := by positivity
    rw [double]
    calc (x.significand : ℚ) * 2 ^ x.exponent ≤ 2 ^ 53 * 2 ^ 970 := by gcongr
      _ ≤ (2 ^ 53 - 3) * (2 ^ 970 * 2) := by
          generalize (2 : ℚ) ^ 970 = least at step ⊢
          linarith

end Magnitude

namespace Decimal

/-- The value of a decimal fraction. -/
def toRat (d : Decimal) : ℚ :=
  d.coefficient * 10 ^ d.exponent

/-- A power of ten as a fraction of natural numbers. -/
theorem ten_zpow_eq (power : Int) :
    (10 : ℚ) ^ power = 10 ^ power.toNat / 10 ^ (-power).toNat := by
  rcases Int.le_total 0 power with nonneg | neg
  · have below : (-power).toNat = 0 := Int.toNat_of_nonpos (by omega)
    rw [below, pow_zero, div_one, ← zpow_natCast, Int.toNat_of_nonneg nonneg]
  · have above : power.toNat = 0 := Int.toNat_of_nonpos neg
    rw [above, pow_zero, one_div, ← zpow_natCast, ← zpow_neg, Int.toNat_of_nonneg (by omega),
      neg_neg]

theorem ratio_eq (d : Decimal) :
    ((d.coefficient * 10 ^ d.exponent.toNat : Nat) : ℚ) / (10 ^ (-d.exponent).toNat : Nat) =
      d.toRat := by
  rw [toRat, ten_zpow_eq, mul_div_assoc']
  norm_cast

variable {d : Decimal} {x : Magnitude}

theorem coefficient_ne_zero (read : d.nearest? = some x) (nonzero : x.rank ≠ 0) :
    d.coefficient ≠ 0 := by
  intro nothing
  rw [nearest?, if_pos nothing] at read
  cases read
  exact nonzero rfl

/-- A decimal fraction that is rounded to something other than zero is rounded as a quotient. -/
theorem ofRatio?_of_nearest? (read : d.nearest? = some x) (nonzero : x.rank ≠ 0) :
    Magnitude.ofRatio? (d.coefficient * 10 ^ d.exponent.toNat) (10 ^ (-d.exponent).toNat) =
      some x := by
  rw [nearest?, if_neg (coefficient_ne_zero read nonzero)] at read
  split at read
  · contradiction
  · split at read
    · cases read
      exact absurd rfl nonzero
    · exact read

theorem ratio_ne_zero (read : d.nearest? = some x) (nonzero : x.rank ≠ 0) :
    d.coefficient * 10 ^ d.exponent.toNat ≠ 0 :=
  Nat.mul_ne_zero (coefficient_ne_zero read nonzero) (Nat.pow_pos (by decide)).ne'

/-- A decimal fraction exceeds the magnitude that it is rounded to by half of the largest unit at
most. -/
theorem toRat_le_of_nearest? (read : d.nearest? = some x) (nonzero : x.rank ≠ 0) :
    d.toRat ≤ x.toRat + 2 ^ 970 := by
  have divisor : 0 < 10 ^ (-d.exponent).toNat := Nat.pow_pos (by decide)
  have rounded := ofRatio?_of_nearest? read nonzero
  obtain ⟨_, below⟩ := Magnitude.ofRatio?_bounds divisor rounded
  have unit_le : (2 : ℚ) ^ Magnitude.unitOf (d.coefficient * 10 ^ d.exponent.toNat)
      (10 ^ (-d.exponent).toNat) ≤ 2 ^ ((971 : Nat) : Int) :=
    zpow_le_zpow_right₀ one_le_two
      (Magnitude.unitOf_le (ratio_ne_zero read nonzero) divisor rounded)
  have half : (2 : ℚ) ^ 971 = 2 ^ 970 * 2 := pow_succ 2 970
  rw [zpow_natCast, half] at unit_le
  rw [← ratio_eq]
  generalize (2 : ℚ) ^ 970 = step at unit_le ⊢
  exact below.trans (by linarith)

end Decimal

end FilterQuery
