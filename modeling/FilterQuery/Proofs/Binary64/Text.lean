import Mathlib.Data.List.TakeWhile
import FilterQuery.Json.Basic
import FilterQuery.Proofs.Binary64.Rounding
import FilterQuery.Proofs.Text.Digits

/-!
# Numbers read back

A number is written as its shortest decimal, which reads back, and a positional text is read as the
decimal that it was written for.  A text with an exponent is not read.
-/

namespace FilterQuery

namespace Decimal

/-- Zeros behind a whole number do not change what it is rounded to, before the point or behind
it. -/
theorem nearest?_scaled {d : Decimal} {x : Magnitude} (whole : 0 ≤ d.exponent)
    (read : d.nearest? = some x) (places : Nat) :
    nearest? ⟨d.coefficient * 10 ^ d.exponent.toNat * 10 ^ places, -places⟩ = some x := by
  obtain ⟨coefficient, exponent⟩ := d
  dsimp only at whole ⊢
  by_cases zero : coefficient = 0
  · rw [nearest?, if_pos zero] at read
    simpa [nearest?, zero] using read
  · have small : exponent ≤ 400 := by
      by_contra large
      rw [nearest?, if_neg zero, if_pos (Int.not_le.mp large)] at read
      contradiction
    have positive : 0 < coefficient * 10 ^ exponent.toNat :=
      Nat.mul_pos (Nat.pos_of_ne_zero zero) (Nat.pow_pos (by decide))
    have scale : 0 < 10 ^ places := Nat.pow_pos (by decide)
    have nonzero := (Nat.mul_pos positive scale).ne'
    have enough : places ≤ (coefficient * 10 ^ exponent.toNat * 10 ^ places).log2 := by
      rw [Nat.le_log2 nonzero]
      calc 2 ^ places ≤ 10 ^ places := Nat.pow_le_pow_left (by decide) _
        _ ≤ coefficient * 10 ^ exponent.toNat * 10 ^ places :=
            Nat.le_mul_of_pos_left _ positive
    have behind : (-exponent).toNat = 0 := Int.toNat_of_nonpos (by omega)
    have before : (-(places : Int)).toNat = 0 := Int.toNat_of_nonpos (by omega)
    have ratio := nearest?_eq_ofRatio? zero small (by omega)
    have scaled := @nearest?_eq_ofRatio? _ (-places) nonzero (by omega) (by omega)
    rw [behind, pow_zero] at ratio
    rw [before, pow_zero, mul_one, Int.neg_neg, Int.toNat_natCast, ← one_mul (10 ^ places),
      ← mul_assoc, mul_one, Magnitude.ofRatio?_mul_right Nat.one_pos scale] at scaled
    rw [scaled, ← ratio, read]

end Decimal

namespace Binary64

variable {negative : Bool} {d : Decimal} {x : Magnitude}

/-- A sign is split off what is written behind it. -/
theorem splitSign_signText {text : List Char}
    (unsigned : ∀ c ∈ text.head?, c ≠ '-' ∧ c ≠ '+') :
    splitSign (signText negative ++ text) = (negative, text) := by
  cases negative with
  | true => rfl
  | false =>
      cases text with
      | nil => rfl
      | cons first rest =>
          obtain ⟨notMinus, notPlus⟩ := unsigned first rfl
          change splitSign (first :: rest) = _
          unfold splitSign
          split
          · simp_all
          · simp_all
          · rfl

/-- Digits do not begin with a sign, whatever follows them. -/
theorem unsigned_of_digits {digits rest : List Char} (nonempty : digits ≠ [])
    (each : ∀ c ∈ digits, c.isDigit = true) :
    ∀ c ∈ (digits ++ rest).head?, c ≠ '-' ∧ c ≠ '+' := by
  rw [List.head?_append_of_ne_nil _ nonempty]
  intro c head
  have digit := each c (List.mem_of_mem_head? head)
  constructor
  · rintro rfl
    contradiction
  · rintro rfl
    contradiction

/-- Digits are read as a whole number. -/
theorem ofPlainChars?_whole {digits : List Char} (nonempty : digits ≠ [])
    (each : ∀ c ∈ digits, c.isDigit = true) :
    ofPlainChars? (signText negative ++ digits) =
      some (ofDecimal negative ⟨valueOfDigits digits 0, 0⟩) := by
  have unsigned := @unsigned_of_digits digits [] nonempty each
  rw [List.append_nil] at unsigned
  have taken : digits.takeWhile Char.isDigit = digits := List.takeWhile_eq_self_iff.mpr each
  have left : digits.dropWhile Char.isDigit = [] := List.dropWhile_eq_nil_iff.mpr each
  rw [ofPlainChars?, splitSign_signText unsigned]
  simp only [taken, left, readDigits?_eq nonempty each, Option.map_some]

/-- Digits around a point are read as the digits of both sides, shifted by those behind it. -/
theorem ofPlainChars?_fraction {whole fraction : List Char} (wholeNonempty : whole ≠ [])
    (fractionNonempty : fraction ≠ []) (each : ∀ c ∈ whole ++ fraction, c.isDigit = true) :
    ofPlainChars? (signText negative ++ (whole ++ '.' :: fraction)) =
      some (ofDecimal negative ⟨valueOfDigits (whole ++ fraction) 0, -fraction.length⟩) := by
  rcases List.forall_mem_append.mp each with ⟨wholeDigits, fractionDigits⟩
  have taken : (whole ++ '.' :: fraction).takeWhile Char.isDigit = whole := by
    rw [List.takeWhile_append_of_pos wholeDigits]
    simp
  have left : (whole ++ '.' :: fraction).dropWhile Char.isDigit = '.' :: fraction := by
    rw [List.dropWhile_append_of_pos wholeDigits]
    simp
  rw [ofPlainChars?, splitSign_signText (unsigned_of_digits wholeNonempty wholeDigits)]
  simp only [taken, left, readDigits?_eq wholeNonempty wholeDigits,
    readDigits?_eq fractionNonempty fractionDigits, valueOfDigits_append]
  rfl

/-- A text is not read if it holds more than digits and a point behind its sign. -/
theorem ofPlainChars?_eq_none {text : List Char} {c : Char} (member : c ∈ (splitSign text).2)
    (notDigit : c.isDigit = false) (notPoint : c ≠ '.') : ofPlainChars? text = none := by
  have notWhole : c ∉ (splitSign text).2.takeWhile Char.isDigit := by
    intro inWhole
    have digit := List.all_eq_true.mp List.all_takeWhile c inWhole
    rw [notDigit] at digit
    contradiction
  rw [← List.takeWhile_append_dropWhile (p := Char.isDigit) (l := (splitSign text).2)] at member
  have inRest := (List.mem_append.mp member).resolve_left notWhole
  unfold ofPlainChars?
  dsimp only
  split
  · next rest_eq =>
      rw [rest_eq] at inRest
      contradiction
  · next fraction rest_eq =>
      rw [rest_eq] at inRest
      have inFraction := (List.mem_cons.mp inRest).resolve_left notPoint
      have unread : readDigits? fraction = none := by
        rw [readDigits?, if_neg]
        intro digits
        have digit := List.all_eq_true.mp (Bool.and_eq_true_iff.mp digits).2 c inFraction
        rw [notDigit] at digit
        contradiction
      rw [unread]
      cases readDigits? ((splitSign text).2.takeWhile Char.isDigit) <;> rfl
  · rfl

theorem ofDecimal_eq (read : d.nearest? = some x) : ofDecimal negative d = finite negative x := by
  rw [ofDecimal, read]

/-- A decimal without places behind the point is written with zeros at the end. -/
theorem positional_whole (whole : 0 ≤ d.exponent) :
    d.positional = digitsOf d.coefficient ++ List.replicate d.exponent.toNat '0' := by
  rw [Decimal.positional, if_pos whole]

theorem valueOfDigits_positional (whole : 0 ≤ d.exponent) :
    valueOfDigits d.positional 0 = d.coefficient * 10 ^ d.exponent.toNat := by
  rw [positional_whole whole, valueOfDigits_append, valueOfDigits_digitsOf, valueOfDigits_zeros]

theorem isDigit_of_mem_positional (whole : 0 ≤ d.exponent) :
    ∀ c ∈ d.positional, c.isDigit = true := by
  rw [positional_whole whole, List.forall_mem_append]
  constructor
  · exact fun _ => isDigit_of_mem_digitsOf
  · intro c member
    rw [List.eq_of_mem_replicate member]
    rfl

theorem positional_ne_nil (whole : 0 ≤ d.exponent) : d.positional ≠ [] := by
  simp [positional_whole whole, digitsOf, Nat.toDigits_ne_nil]

/-- A decimal with places behind the point is written with its padded digits around the point. -/
theorem positional_fraction (negativeExponent : d.exponent < 0) :
    ∃ whole fraction, d.positional = whole ++ '.' :: fraction ∧ whole ≠ [] ∧ fraction ≠ [] ∧
      whole ++ fraction = paddedDigits ((-d.exponent).toNat + 1) d.coefficient ∧
      -(fraction.length : Int) = d.exponent := by
  have padded_le : (-d.exponent).toNat + 1 ≤
      (paddedDigits ((-d.exponent).toNat + 1) d.coefficient).length := by
    rw [paddedDigits, List.length_append, List.length_replicate]
    omega
  have positional_eq : d.positional =
      (paddedDigits ((-d.exponent).toNat + 1) d.coefficient).take
          ((paddedDigits ((-d.exponent).toNat + 1) d.coefficient).length - (-d.exponent).toNat) ++
        '.' :: (paddedDigits ((-d.exponent).toNat + 1) d.coefficient).drop
          ((paddedDigits ((-d.exponent).toNat + 1) d.coefficient).length -
            (-d.exponent).toNat) := by
    rw [Decimal.positional, if_neg (by omega)]
    rfl
  generalize paddedDigits ((-d.exponent).toNat + 1) d.coefficient = padded
    at padded_le positional_eq ⊢
  refine ⟨_, _, positional_eq, ?_, ?_, List.take_append_drop _ padded, ?_⟩
  · apply List.ne_nil_of_length_pos
    rw [List.length_take]
    omega
  · apply List.ne_nil_of_length_pos
    rw [List.length_drop]
    omega
  · rw [List.length_drop]
    omega

/-- Digits, or digits on both sides of a point. -/
inductive Positional : List Char → Prop
  | whole {digits : List Char} (nonempty : digits ≠ [])
      (each : ∀ c ∈ digits, c.isDigit = true) : Positional digits
  | fraction {whole fraction : List Char} (wholeNonempty : whole ≠ [])
      (fractionNonempty : fraction ≠ []) (each : ∀ c ∈ whole ++ fraction, c.isDigit = true) :
      Positional (whole ++ '.' :: fraction)

/-- Every decimal is written positionally. -/
theorem positional_positional (d : Decimal) : Positional d.positional := by
  by_cases whole : 0 ≤ d.exponent
  · exact Positional.whole (positional_ne_nil whole) (isDigit_of_mem_positional whole)
  · obtain ⟨whole, fraction, shape, wholeNonempty, fractionNonempty, digits, _⟩ :=
      positional_fraction (Int.not_le.mp whole)
    rw [shape]
    apply Positional.fraction wholeNonempty fractionNonempty
    rw [digits]
    exact fun _ => isDigit_of_mem_paddedDigits

/-- The text of a finite number in the query language is a sign and a positional text. -/
theorem exists_positional_of_toChars (negative : Bool) (x : Magnitude) :
    ∃ text, (finite negative x).toChars = signText negative ++ text ∧ Positional text := by
  rw [toChars]
  split
  · exact ⟨['0'], rfl, Positional.whole (List.cons_ne_nil _ _) (by simp)⟩
  · exact ⟨_, rfl, positional_positional _⟩

/-- The text of a decimal with places behind the point is read as the decimal. -/
theorem ofPlainChars?_positional_fraction (negativeExponent : d.exponent < 0) :
    ofPlainChars? (signText negative ++ d.positional) = some (ofDecimal negative d) := by
  obtain ⟨whole, fraction, shape, wholeNonempty, fractionNonempty, digits, places⟩ :=
    positional_fraction negativeExponent
  have each : ∀ c ∈ whole ++ fraction, c.isDigit = true := by
    rw [digits]
    exact fun _ => isDigit_of_mem_paddedDigits
  rw [shape, ofPlainChars?_fraction wholeNonempty fractionNonempty each, digits,
    valueOfDigits_paddedDigits, places]

/-- A positional text is read as the number that its decimal is rounded to. -/
theorem ofPlainChars?_positional (read : d.nearest? = some x) :
    ofPlainChars? (signText negative ++ d.positional) = some (finite negative x) := by
  by_cases whole : 0 ≤ d.exponent
  · have scaled := d.nearest?_scaled whole read 0
    rw [pow_zero, mul_one, ← valueOfDigits_positional whole] at scaled
    rw [ofPlainChars?_whole (positional_ne_nil whole) (isDigit_of_mem_positional whole)]
    exact congrArg some (ofDecimal_eq scaled)
  · rw [ofPlainChars?_positional_fraction (Int.not_le.mp whole), ofDecimal_eq read]

/-- The text of a finite number in the query language is read as the number. -/
theorem ofPlainChars?_toChars (negative : Bool) (x : Magnitude) :
    ofPlainChars? (finite negative x).toChars = some (finite negative x) := by
  rw [toChars]
  split
  · next rank_zero =>
      rw [Magnitude.eq_zero_of_rank rank_zero, ofPlainChars?_whole (List.cons_ne_nil _ _) (by simp)]
      rfl
  · exact ofPlainChars?_positional (x.nearest?_shortest .up)

/-- The text of a decimal with a point is read as the number that the decimal is rounded to. -/
theorem ofPlainChars?_pointed (read : d.nearest? = some x) :
    ofPlainChars? (signText negative ++ d.pointed) = some (finite negative x) := by
  rw [Decimal.pointed]
  split
  · next whole =>
      have scaled := d.nearest?_scaled whole read 1
      have each : ∀ c ∈ d.positional ++ ['0'], c.isDigit = true :=
        List.forall_mem_append.mpr ⟨isDigit_of_mem_positional whole, by simp⟩
      rw [← valueOfDigits_positional whole, ← valueOfDigits_zeros, ← valueOfDigits_append] at scaled
      rw [ofPlainChars?_fraction (positional_ne_nil whole) (List.cons_ne_nil _ _) each]
      exact congrArg some (ofDecimal_eq scaled)
  · exact ofPlainChars?_positional read

/-- Every decimal with a point is written positionally. -/
theorem positional_pointed (d : Decimal) : Positional d.pointed := by
  rw [Decimal.pointed]
  split
  · next whole =>
      apply Positional.fraction (positional_ne_nil whole) (List.cons_ne_nil '0' [])
      exact List.forall_mem_append.mpr ⟨isDigit_of_mem_positional whole, by simp⟩
  · exact positional_positional d

/-- The text of a decimal with an exponent begins with a digit and holds the letter of the
exponent. -/
theorem exists_of_scientific (d : Decimal) :
    ∃ first rest, d.scientific = first :: rest ∧ first.isDigit = true ∧ 'e' ∈ rest := by
  have each : ∀ c ∈ digitsOf d.coefficient, c.isDigit = true := fun _ => isDigit_of_mem_digitsOf
  have nonempty : digitsOf d.coefficient ≠ [] := by simp [digitsOf, Nat.toDigits_ne_nil]
  unfold Decimal.scientific
  dsimp only
  split
  · next first second rest digits =>
      rw [digits] at each
      exact ⟨first, _, rfl, each first List.mem_cons_self, by simp⟩
  · obtain ⟨first, rest, digits⟩ := List.exists_cons_of_ne_nil nonempty
    rw [digits] at each ⊢
    exact ⟨first, _, rfl, each first List.mem_cons_self, by simp⟩

/-- The text of a decimal with an exponent is not read. -/
theorem ofPlainChars?_scientific (negative : Bool) (d : Decimal) :
    ofPlainChars? (signText negative ++ d.scientific) = none := by
  obtain ⟨first, rest, scientific_eq, digit, letter⟩ := exists_of_scientific d
  have unsigned : ∀ c ∈ (first :: rest).head?, c ≠ '-' ∧ c ≠ '+' :=
    unsigned_of_digits (List.cons_ne_nil first []) (List.forall_mem_singleton.mpr digit)
  rw [scientific_eq]
  apply ofPlainChars?_eq_none (c := 'e') _ rfl (by decide)
  rw [splitSign_signText unsigned]
  exact List.mem_cons_of_mem first letter

end Binary64

end FilterQuery
