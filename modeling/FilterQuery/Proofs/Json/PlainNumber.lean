import FilterQuery.Proofs.Binary64.Nearest
import FilterQuery.Proofs.Binary64.Text

/-!
# Numbers of JSON texts in the query language

A JSON number is written positionally in the middle range of magnitudes and with an exponent outside
of it.  The query language knows no exponents, so it reads the numbers of the middle range as they
are and does not read the others.
-/

namespace FilterQuery

namespace Magnitude

/-- Whether a magnitude is zero or lies in the range that JSON numbers are written positionally
in. -/
def IsPlain (x : Magnitude) : Prop :=
  x.rank = 0 ∨ ((10 : ℚ) ^ (-5 : Int) ≤ x.toRat ∧ x.toRat < 10 ^ (16 : Int))

/-- The magnitude that the lower bound of the range is rounded to. -/
def leastPlain : Magnitude := ⟨4532020583610935537, by decide⟩

/-- The magnitude of the upper bound of the range. -/
def plainLimit : Magnitude := ⟨4846369599423283200, by decide⟩

theorem ten_zpow_le_leastPlain : (10 : ℚ) ^ (-5 : Int) ≤ leastPlain.toRat := by
  have significand_eq : leastPlain.significand = 5902958103587057 := by decide
  have exponent_eq : leastPlain.exponent = -69 := by decide
  rw [toRat, significand_eq, exponent_eq]
  norm_num

theorem ten_zpow_le_plainLimit : (10 : ℚ) ^ (16 : Int) ≤ plainLimit.toRat := by
  have significand_eq : plainLimit.significand = 5000000000000000 := by decide
  have exponent_eq : plainLimit.exponent = 1 := by decide
  rw [toRat, significand_eq, exponent_eq]
  norm_num

/-- A magnitude other than zero lies in the range exactly if the first digit of its shortest decimal
does. -/
theorem leadingPlace_shortest_iff {x : Magnitude} (nonzero : x.rank ≠ 0) :
    -5 ≤ (x.shortest .toEven).leadingPlace ∧ (x.shortest .toEven).leadingPlace < 16 ↔
      x.IsPlain := by
  have lower := @le_leadingPlace_shortest_iff .toEven x leastPlain (-5) nonzero (by decide)
    (by decide) ten_zpow_le_leastPlain (by decide)
  have upper := @le_leadingPlace_shortest_iff .toEven x plainLimit 16 nonzero (by decide)
    (by decide) ten_zpow_le_plainLimit (by decide)
  rw [IsPlain, or_iff_right nonzero, lower, ← not_le, upper, not_le]

end Magnitude

namespace JsonNumber

open Binary64

/-- The number that a JSON number stands for. -/
def amount : JsonNumber → Binary64
  | integer value => ofDecimal (decide (value < 0)) ⟨value.natAbs, 0⟩
  | float negative x => finite negative x

/-- Whether a JSON number is written without an exponent: an integer, zero, or a number from `1e-5`
up to below `1e16`. -/
def IsPlain : JsonNumber → Prop
  | integer _ => True
  | float _ x => x.IsPlain

/-- A magnitude of the middle range is written positionally, and read as it is. -/
theorem magnitudeChars_of_isPlain {x : Magnitude} (plain : x.IsPlain) :
    Positional (magnitudeChars x) ∧ ∀ negative,
      ofPlainChars? (signText negative ++ magnitudeChars x) = some (finite negative x) := by
  rw [magnitudeChars]
  dsimp only
  split
  · next rank_zero =>
      have each : ∀ c ∈ ['0'] ++ ['0'], c.isDigit = true := by simp
      refine ⟨.fraction (List.cons_ne_nil _ _) (List.cons_ne_nil _ _) each, fun negative => ?_⟩
      rw [Magnitude.eq_zero_of_rank rank_zero]
      exact @ofPlainChars?_fraction negative ['0'] ['0'] (List.cons_ne_nil _ _)
        (List.cons_ne_nil _ _) each
  · next nonzero =>
      rw [if_pos ((Magnitude.leadingPlace_shortest_iff nonzero).mpr plain)]
      exact ⟨positional_pointed _, fun negative =>
        ofPlainChars?_pointed (x.nearest?_shortest .toEven)⟩

/-- A magnitude outside of the middle range is written with an exponent, and not read. -/
theorem ofPlainChars?_magnitudeChars_eq_none {x : Magnitude} (notPlain : ¬ x.IsPlain)
    (negative : Bool) : ofPlainChars? (signText negative ++ magnitudeChars x) = none := by
  have nonzero : x.rank ≠ 0 := fun rank_zero => notPlain (Or.inl rank_zero)
  rw [magnitudeChars, if_neg nonzero]
  dsimp only
  rw [if_neg (mt (Magnitude.leadingPlace_shortest_iff nonzero).mp notPlain)]
  exact ofPlainChars?_scientific negative _

theorem toChars_integer (value : Int) :
    (integer value).toChars =
      signText (decide (value < 0)) ++ paddedDigits 0 value.natAbs := by
  rw [toChars, paddedInteger]
  by_cases negative : value < 0
  · rw [if_pos negative, decide_eq_true negative]
    rfl
  · rw [if_neg negative, decide_eq_false negative]
    rfl

/-- The text of a plain JSON number is a sign and a positional text, and read as the number. -/
theorem toChars_of_isPlain {x : JsonNumber} (plain : x.IsPlain) :
    (∃ negative text, x.toChars = signText negative ++ text ∧ Positional text) ∧
      ofPlainChars? x.toChars = some x.amount := by
  cases x with
  | integer value =>
      have nonempty := paddedDigits_ne_nil 0 value.natAbs
      have each : ∀ c ∈ paddedDigits 0 value.natAbs, c.isDigit = true :=
        fun _ => isDigit_of_mem_paddedDigits
      refine ⟨⟨_, _, toChars_integer value, Positional.whole nonempty each⟩, ?_⟩
      rw [toChars_integer, ofPlainChars?_whole nonempty each, valueOfDigits_paddedDigits, amount]
  | float negative x =>
      obtain ⟨positional, reads⟩ := magnitudeChars_of_isPlain plain
      exact ⟨⟨negative, _, rfl, positional⟩, reads negative⟩

/-- The text of any other JSON number is not read. -/
theorem ofPlainChars?_toChars_eq_none {x : JsonNumber} (notPlain : ¬ x.IsPlain) :
    ofPlainChars? x.toChars = none := by
  cases x with
  | integer value => exact absurd trivial notPlain
  | float negative x => exact ofPlainChars?_magnitudeChars_eq_none notPlain negative

end JsonNumber

end FilterQuery
