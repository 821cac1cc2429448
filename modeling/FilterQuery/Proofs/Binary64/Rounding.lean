import Mathlib.Algebra.Order.Field.Power
import Mathlib.Data.Rat.Cast.Order
import Mathlib.Tactic.Positivity
import Mathlib.Tactic.Ring
import FilterQuery.Binary64

/-!
# Rounding what is exact

Rounding a quotient only depends on its value, and a quotient that is a magnitude already is rounded
to that magnitude.  So the decimal fraction that writes a magnitude out in full reads back, and with
it the shortest one, which is the fraction in full unless a shorter one was tried and read back.
-/

namespace FilterQuery

/-- A power of two as a fraction of natural numbers. -/
theorem two_zpow_eq (power : Int) : (2 : ℚ) ^ power = 2 ^ power.toNat / 2 ^ (-power).toNat := by
  rcases Int.le_total 0 power with nonneg | neg
  · have below : (-power).toNat = 0 := Int.toNat_of_nonpos (by omega)
    rw [below, pow_zero, div_one, ← zpow_natCast, Int.toNat_of_nonneg nonneg]
  · have above : power.toNat = 0 := Int.toNat_of_nonpos neg
    rw [above, pow_zero, one_div, ← zpow_natCast, ← zpow_neg, Int.toNat_of_nonneg (by omega),
      neg_neg]

/-- A power of two fits into a quotient when it is at most as large. -/
theorem powerFits_iff {numerator denominator : Nat} (positive : 0 < denominator) (power : Int) :
    powerFits numerator denominator power = true ↔
      (2 : ℚ) ^ power ≤ numerator / denominator := by
  have scale : (0 : ℚ) < 2 ^ (-power).toNat := by positivity
  have divisor : (0 : ℚ) < denominator := by exact_mod_cast positive
  rw [two_zpow_eq, div_le_div_iff₀ scale divisor, powerFits, decide_eq_true_iff, mul_comm]
  norm_cast

/-- The binary order of a quotient is the largest power of two that fits into it. -/
theorem binaryOrder_spec {numerator denominator : Nat} (nonzero : numerator ≠ 0)
    (positive : 0 < denominator) :
    (2 : ℚ) ^ binaryOrder numerator denominator ≤ numerator / denominator ∧
      (numerator / denominator : ℚ) < 2 ^ (binaryOrder numerator denominator + 1) := by
  have numerator_ge : (2 : ℚ) ^ (numerator.log2 : Int) ≤ numerator := by
    exact_mod_cast Nat.log2_self_le nonzero
  have numerator_lt : (numerator : ℚ) < 2 ^ ((numerator.log2 : Int) + 1) := by
    exact_mod_cast Nat.lt_log2_self (n := numerator)
  have denominator_ge : (2 : ℚ) ^ (denominator.log2 : Int) ≤ denominator := by
    exact_mod_cast Nat.log2_self_le positive.ne'
  have denominator_lt : (denominator : ℚ) < 2 ^ ((denominator.log2 : Int) + 1) := by
    exact_mod_cast Nat.lt_log2_self (n := denominator)
  have divisor : (0 : ℚ) < denominator := by exact_mod_cast positive
  have below : (numerator / denominator : ℚ) <
      2 ^ ((numerator.log2 : Int) - denominator.log2 + 1) := by
    rw [div_lt_iff₀ divisor]
    calc (numerator : ℚ) < 2 ^ ((numerator.log2 : Int) + 1) := numerator_lt
      _ = 2 ^ ((numerator.log2 : Int) - denominator.log2 + 1) * 2 ^ (denominator.log2 : Int) := by
          rw [← zpow_add₀ two_ne_zero]
          congr 1
          omega
      _ ≤ 2 ^ ((numerator.log2 : Int) - denominator.log2 + 1) * denominator := by gcongr
  have above : (2 : ℚ) ^ ((numerator.log2 : Int) - denominator.log2 - 1) ≤
      numerator / denominator := by
    rw [le_div_iff₀ divisor]
    calc (2 : ℚ) ^ ((numerator.log2 : Int) - denominator.log2 - 1) * denominator
        ≤ 2 ^ ((numerator.log2 : Int) - denominator.log2 - 1) *
            2 ^ ((denominator.log2 : Int) + 1) := by gcongr
      _ = 2 ^ (numerator.log2 : Int) := by
          rw [← zpow_add₀ two_ne_zero]
          congr 1
          omega
      _ ≤ numerator := numerator_ge
  unfold binaryOrder
  dsimp only
  split
  · next fits => exact ⟨(powerFits_iff positive _).mp fits, below⟩
  · next misses =>
      rw [powerFits_iff positive, not_le] at misses
      rw [sub_add_cancel]
      exact ⟨above, misses⟩

/-- A quotient between a power of two and the next has that power as its order. -/
theorem binaryOrder_eq {numerator denominator : Nat} (nonzero : numerator ≠ 0)
    (positive : 0 < denominator) {power : Int}
    (above : (2 : ℚ) ^ power ≤ numerator / denominator)
    (below : (numerator / denominator : ℚ) < 2 ^ (power + 1)) :
    binaryOrder numerator denominator = power := by
  obtain ⟨orderAbove, orderBelow⟩ := binaryOrder_spec nonzero positive
  have upper := (zpow_lt_zpow_iff_right₀ one_lt_two).mp (lt_of_le_of_lt orderAbove below)
  have lower := (zpow_lt_zpow_iff_right₀ one_lt_two).mp (lt_of_le_of_lt above orderBelow)
  omega

theorem nearestEven_mul_right {numerator denominator factor : Nat} (positive : 0 < factor) :
    nearestEven (numerator * factor) (denominator * factor) =
      nearestEven numerator denominator := by
  have double : 2 * (numerator % denominator * factor) = 2 * (numerator % denominator) * factor :=
    (Nat.mul_assoc _ _ _).symm
  simp only [nearestEven, Nat.mul_div_mul_right _ _ positive, Nat.mul_mod_mul_right, double,
    Nat.mul_lt_mul_right positive]

theorem nearestEven_mul_self {quotient denominator : Nat} (positive : 0 < denominator) :
    nearestEven (quotient * denominator) denominator = quotient := by
  simp [nearestEven, positive]

namespace Magnitude

/-- Rounding a quotient only depends on its value. -/
theorem ofRatio?_mul_right {numerator denominator factor : Nat} (divisor : 0 < denominator)
    (positive : 0 < factor) :
    ofRatio? (numerator * factor) (denominator * factor) = ofRatio? numerator denominator := by
  by_cases zero : numerator = 0
  · simp [ofRatio?, zero]
  · have scaled : numerator * factor ≠ 0 := Nat.mul_ne_zero zero positive.ne'
    have same : ((numerator * factor : Nat) / (denominator * factor : Nat) : ℚ) =
        numerator / denominator := by
      push_cast
      exact mul_div_mul_right _ _ (by exact_mod_cast positive.ne')
    have order : binaryOrder (numerator * factor) (denominator * factor) =
        binaryOrder numerator denominator := by
      apply binaryOrder_eq scaled (Nat.mul_pos divisor positive)
      · rw [same]
        exact (binaryOrder_spec zero divisor).1
      · rw [same]
        exact (binaryOrder_spec zero divisor).2
    have inUnit (unit : Int) : nearestInUnit (numerator * factor) (denominator * factor) unit =
        nearestInUnit numerator denominator unit := by
      rw [nearestInUnit, Nat.mul_right_comm, Nat.mul_right_comm denominator]
      exact nearestEven_mul_right positive
    simp only [ofRatio?, zero, scaled, order, inUnit]

/-- The value of a magnitude. -/
def toRat (x : Magnitude) : ℚ :=
  x.significand * 2 ^ x.exponent

theorem toRat_eq (x : Magnitude) : x.toRat = x.numerator / x.denominator := by
  rw [toRat, two_zpow_eq, numerator, denominator, mul_div_assoc']
  norm_cast

theorem exponent_ge (x : Magnitude) : -1074 ≤ x.exponent := by
  unfold exponent
  rw [Nat.pow_eq]
  split <;> omega

theorem significand_lt (x : Magnitude) : x.significand < 2 ^ 53 := by
  unfold significand
  rw [Nat.pow_eq]
  split <;> omega

/-- A magnitude whose unit is not the least one has all the bits of a significand. -/
theorem significand_ge {x : Magnitude} (normal : x.exponent ≠ -1074) :
    2 ^ 52 ≤ x.significand := by
  unfold exponent at normal
  unfold significand
  rw [Nat.pow_eq] at normal ⊢
  split at normal
  · contradiction
  · next large =>
      rw [if_neg large]
      omega

/-- The rank of a magnitude counts the units below its own and then its significand. -/
theorem rank_eq (x : Magnitude) :
    (x.exponent + 1074).toNat * 2 ^ 52 + x.significand = x.rank := by
  unfold exponent significand
  rw [Nat.pow_eq]
  split <;> omega

theorem eq_zero_of_rank {x : Magnitude} (rank_zero : x.rank = 0) : x = zero := by
  cases x
  cases rank_zero
  rfl

theorem eq_zero {x : Magnitude} (vanishes : x.significand = 0) : x = zero := by
  have least : x.exponent = -1074 := by
    by_contra normal
    have large := significand_ge normal
    omega
  apply eq_zero_of_rank
  rw [← x.rank_eq, least, vanishes]
  rfl

/-- The unit that rounding chooses for the value of a magnitude is the unit of the magnitude. -/
theorem unit_eq {x : Magnitude} {numerator denominator : Nat} (nonzero : numerator ≠ 0)
    (positive : 0 < denominator) (same : (numerator / denominator : ℚ) = x.toRat) :
    max (binaryOrder numerator denominator - 52) (-1074) = x.exponent := by
  obtain ⟨above, below⟩ := binaryOrder_spec nonzero positive
  rw [same, toRat] at above below
  have unit : (0 : ℚ) < 2 ^ x.exponent := by positivity
  have upper : binaryOrder numerator denominator < 53 + x.exponent := by
    apply (zpow_lt_zpow_iff_right₀ (one_lt_two (α := ℚ))).mp
    calc (2 : ℚ) ^ binaryOrder numerator denominator
        ≤ x.significand * 2 ^ x.exponent := above
      _ < 2 ^ (53 : Int) * 2 ^ x.exponent := by
          gcongr
          exact_mod_cast x.significand_lt
      _ = 2 ^ (53 + x.exponent) := (zpow_add₀ two_ne_zero _ _).symm
  by_cases least : x.exponent = -1074
  · omega
  · have lower : 52 + x.exponent < binaryOrder numerator denominator + 1 := by
      apply (zpow_lt_zpow_iff_right₀ (one_lt_two (α := ℚ))).mp
      calc (2 : ℚ) ^ (52 + x.exponent)
          = 2 ^ (52 : Int) * 2 ^ x.exponent := zpow_add₀ two_ne_zero _ _
        _ ≤ x.significand * 2 ^ x.exponent := by
            gcongr
            exact_mod_cast significand_ge least
        _ < 2 ^ (binaryOrder numerator denominator + 1) := below
    have least_le := x.exponent_ge
    omega

/-- A quotient that is a magnitude is rounded to that magnitude. -/
theorem ofRatio?_exact {x : Magnitude} {numerator denominator : Nat} (positive : 0 < denominator)
    (exact_eq : numerator * x.denominator = x.numerator * denominator) :
    ofRatio? numerator denominator = some x := by
  have divisor := x.denominator_pos
  have same : (numerator / denominator : ℚ) = x.toRat := by
    rw [toRat_eq, div_eq_div_iff (by exact_mod_cast positive.ne') (by exact_mod_cast divisor.ne')]
    exact_mod_cast exact_eq
  by_cases zero : numerator = 0
  · have vanishes : x.significand = 0 := by
      rw [zero, Nat.zero_mul, eq_comm, Nat.mul_eq_zero, Magnitude.numerator,
        Nat.mul_eq_zero] at exact_eq
      rcases exact_eq with (absent | impossible) | impossible
      · exact absent
      · exact absurd impossible (Nat.two_pow_pos _).ne'
      · exact absurd impossible positive.ne'
    rw [ofRatio?, if_pos zero, eq_zero vanishes]
  · have inUnit : nearestInUnit numerator denominator x.exponent = x.significand := by
      have scaled : numerator * Nat.pow 2 (-x.exponent).toNat =
          x.significand * (denominator * Nat.pow 2 x.exponent.toNat) := by
        calc numerator * Nat.pow 2 (-x.exponent).toNat
            = x.significand * Nat.pow 2 x.exponent.toNat * denominator := exact_eq
          _ = x.significand * (denominator * Nat.pow 2 x.exponent.toNat) := by ring
      rw [nearestInUnit, scaled]
      exact nearestEven_mul_self (Nat.mul_pos positive (Nat.two_pow_pos _))
    have rank : (x.exponent + 1074).toNat * Nat.pow 2 52 + x.significand = x.rank := x.rank_eq
    rw [ofRatio?, if_neg zero]
    simp only [unit_eq zero positive same, inUnit, rank, x.rank_lt, dite_true]

end Magnitude

namespace Decimal

/-- A decimal fraction that is neither too large nor too small to be written out is rounded as the
quotient that it is. -/
theorem nearest?_eq_ofRatio? {coefficient : Nat} {exponent : Int} (nonzero : coefficient ≠ 0)
    (small : exponent ≤ 400) (large : -400 ≤ exponent + coefficient.log2) :
    nearest? ⟨coefficient, exponent⟩ =
      Magnitude.ofRatio? (coefficient * 10 ^ exponent.toNat) (10 ^ (-exponent).toNat) := by
  rw [nearest?, if_neg nonzero, if_neg (Int.not_lt.mpr small), if_neg (Int.not_lt.mpr large)]
  rfl

end Decimal

namespace Magnitude

variable {x : Magnitude}

/-- A magnitude that is written out in full is read back. -/
theorem nearest?_toDecimal (x : Magnitude) : x.toDecimal.nearest? = some x := by
  by_cases vanishes : x.significand = 0
  · have coefficient_zero : x.toDecimal.coefficient = 0 := by
      unfold toDecimal
      split <;> simp [numerator, vanishes]
    rw [Decimal.nearest?, if_pos coefficient_zero, eq_zero vanishes]
  · unfold toDecimal
    split
    · next whole =>
        have nonzero : x.numerator ≠ 0 := Nat.mul_ne_zero vanishes (Nat.two_pow_pos _).ne'
        rw [Decimal.nearest?_eq_ofRatio? nonzero (by decide) (by omega)]
        apply ofRatio?_exact (Nat.pow_pos (by decide))
        have divisor : x.denominator = 1 := by
          rw [denominator, Int.toNat_of_nonpos (by omega)]
        rw [divisor, mul_one]
        rfl
    · next fraction =>
        have factor := Nat.pow_pos (n := (-x.exponent).toNat) (show 0 < 5 by decide)
        have nonzero : x.significand * 5 ^ (-x.exponent).toNat ≠ 0 :=
          Nat.mul_ne_zero vanishes factor.ne'
        -- Four to the power of the places is a lower bound, which outweighs the exponent.
        have large : 2 * (-x.exponent).toNat ≤
            (x.significand * 5 ^ (-x.exponent).toNat).log2 := by
          rw [Nat.le_log2 nonzero, Nat.pow_mul]
          calc (2 ^ 2) ^ (-x.exponent).toNat
              ≤ 5 ^ (-x.exponent).toNat := Nat.pow_le_pow_left (by decide) _
            _ ≤ x.significand * 5 ^ (-x.exponent).toNat :=
                Nat.le_mul_of_pos_left _ (Nat.pos_of_ne_zero vanishes)
        have ratio := @Decimal.nearest?_eq_ofRatio? _ x.exponent nonzero (by omega)
          (by omega)
        rw [Nat.pow_eq, ratio]
        apply ofRatio?_exact (Nat.pow_pos (by decide))
        have whole : x.exponent.toNat = 0 := Int.toNat_of_nonpos (by omega)
        rw [denominator, numerator, whole, Nat.pow_eq, Nat.pow_eq, pow_zero, pow_zero, mul_one,
          mul_one, mul_assoc, ← mul_pow]
        rfl

theorem nearerNeighbour_cases (tie : Tie) (x : Magnitude) (place : Int) (lower : Nat) :
    x.nearerNeighbour tie place lower = lower ∨ x.nearerNeighbour tie place lower = lower + 1 := by
  unfold nearerNeighbour
  dsimp only
  split
  · exact Or.inl rfl
  · split
    · exact Or.inr rfl
    · cases tie with
      | up => exact Or.inr rfl
      | toEven =>
          dsimp only
          omega

/-- What is found on a grid is read back. -/
theorem nearest?_onGrid? {tie : Tie} {place : Int} {d : Decimal}
    (found : x.onGrid? tie place = some d) : d.nearest? = some x := by
  have reads {lower : Nat} (isRead : x.isReadBy ⟨lower, place⟩ = true) :
      Decimal.nearest? ⟨lower, place⟩ = some x := by
    simpa [isReadBy] using isRead
  unfold onGrid? at found
  dsimp only at found
  split at found
  · next lowerRead _ =>
      cases found
      exact reads lowerRead
  · next _ upperRead =>
      cases found
      exact reads upperRead
  · next lowerRead upperRead =>
      cases found
      rcases nearerNeighbour_cases tie x place _ with same | same
      · rw [same]
        exact reads lowerRead
      · rw [same]
        exact reads upperRead
  · contradiction

/-- The shortest decimal of a magnitude is read back, whichever way ties are settled. -/
theorem nearest?_shortest (tie : Tie) (x : Magnitude) : (x.shortest tie).nearest? = some x := by
  unfold shortest
  split
  · next rank_zero =>
      rw [eq_zero_of_rank rank_zero]
      rfl
  · cases found : (List.range 32).findSome? fun (step : Nat) =>
        x.onGrid? tie (x.coarsestPlace - step) with
    | none => exact nearest?_toDecimal x
    | some d =>
        obtain ⟨step, _, onGrid⟩ := List.exists_of_findSome?_eq_some found
        exact nearest?_onGrid? onGrid

end Magnitude

end FilterQuery
