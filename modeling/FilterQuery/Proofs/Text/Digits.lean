import Mathlib.Algebra.Group.Nat.Defs
import FilterQuery.Proofs.Character.Folding
import FilterQuery.Text

/-!
# Digits read back

A natural number that is written with its decimal digits, with or without zeros in front, is read
back from them.  Where the width is large enough for the number, it is met exactly.
-/

namespace FilterQuery

theorem toNat_le_of_isDigit {c : Char} (digit : c.isDigit = true) : c.toNat ≤ 57 := by
  simp only [Char.isDigit, Bool.and_eq_true, decide_eq_true_eq, UInt32.le_iff_toNat_le] at digit
  exact digit.2

theorem le_toNat_of_isDigit {c : Char} (digit : c.isDigit = true) : 48 ≤ c.toNat := by
  simp only [Char.isDigit, Bool.and_eq_true, decide_eq_true_eq, UInt32.le_iff_toNat_le] at digit
  exact digit.1

/-- ASCII digits are digits and word characters to the patterns as well. -/
theorem Character.isDigit_of_ascii {c : Char} (digit : c.isDigit = true) :
    isDigit c = true ∧ isWord c = true := by
  have ascii : c.toNat < 0x80 := Nat.lt_of_le_of_lt (toNat_le_of_isDigit digit) (by decide)
  exact of_ascii (fun c => c.isDigit = true → isDigit c = true ∧ isWord c = true) ascii
    (by decide) digit

theorem isDigit_of_mem_digitsOf {n : Nat} {c : Char} (member : c ∈ digitsOf n) :
    c.isDigit = true :=
  Nat.isDigit_of_mem_toDigits (by decide) (by decide) member

theorem isDigit_of_mem_paddedDigits {width n : Nat} {c : Char}
    (member : c ∈ paddedDigits width n) : c.isDigit = true := by
  rcases List.mem_append.mp member with zero | digit
  · rw [List.eq_of_mem_replicate zero]
    rfl
  · exact isDigit_of_mem_digitsOf digit

theorem paddedDigits_ne_nil (width n : Nat) : paddedDigits width n ≠ [] := by
  simp [paddedDigits, digitsOf, Nat.toDigits_ne_nil]

theorem readDigits?_eq_some_iff {text : List Char} {n : Nat} :
    readDigits? text = some n ↔
      (text ≠ [] ∧ ∀ c ∈ text, c.isDigit = true) ∧ valueOfDigits text 0 = n := by
  rw [readDigits?, Option.ite_none_right_eq_some, Option.some.injEq, Bool.and_eq_true,
    Bool.not_eq_true', List.isEmpty_eq_false_iff, List.all_eq_true]

/-- A run of digits is read as its value. -/
theorem readDigits?_eq {digits : List Char} (nonempty : digits ≠ [])
    (each : ∀ c ∈ digits, c.isDigit = true) :
    readDigits? digits = some (valueOfDigits digits 0) :=
  readDigits?_eq_some_iff.mpr ⟨⟨nonempty, each⟩, rfl⟩

theorem valueOfDigits_append (front back : List Char) (start : Nat) :
    valueOfDigits (front ++ back) start = valueOfDigits back (valueOfDigits front start) :=
  List.foldl_append

theorem valueOfDigits_zeros (count start : Nat) :
    valueOfDigits (List.replicate count '0') start = start * 10 ^ count := by
  change Nat.ofDigitChars 10 (List.replicate count '0') start = _
  rw [Nat.ofDigitChars_replicate_zero, Nat.mul_comm]

theorem valueOfDigits_digitsOf (n : Nat) : valueOfDigits (digitsOf n) 0 = n :=
  Nat.ofDigitChars_ten_toDigits

/-- A value that is continued moves up by as many places as there are digits. -/
theorem valueOfDigits_start (digits : List Char) (start : Nat) :
    valueOfDigits digits start = start * 10 ^ digits.length + valueOfDigits digits 0 := by
  induction digits generalizing start with
  | nil => simp [valueOfDigits]
  | cons digit digits ih =>
      change valueOfDigits digits (10 * start + (digit.toNat - '0'.toNat)) =
        _ + valueOfDigits digits (10 * 0 + (digit.toNat - '0'.toNat))
      rw [ih (10 * start + _), ih (10 * 0 + _), List.length_cons, Nat.pow_succ, Nat.add_mul,
        Nat.mul_zero, Nat.zero_add, Nat.mul_comm 10, Nat.mul_assoc, Nat.mul_comm 10, Nat.add_assoc]

theorem valueOfDigits_cons (digit : Char) (digits : List Char) :
    valueOfDigits (digit :: digits) 0 =
      (digit.toNat - '0'.toNat) * 10 ^ digits.length + valueOfDigits digits 0 := by
  change valueOfDigits digits (10 * 0 + (digit.toNat - '0'.toNat)) = _
  rw [valueOfDigits_start, Nat.mul_zero, Nat.zero_add]

/-- Digits stand for less than the power of ten of their number. -/
theorem valueOfDigits_lt {digits : List Char} (each : ∀ c ∈ digits, c.isDigit = true) :
    valueOfDigits digits 0 < 10 ^ digits.length := by
  induction digits with
  | nil => exact Nat.one_pos
  | cons digit digits ih =>
      rcases List.forall_mem_cons.mp each with ⟨isDigit, others⟩
      have below := ih others
      have small : digit.toNat - '0'.toNat ≤ 9 := Nat.sub_le_of_le_add (toNat_le_of_isDigit isDigit)
      rw [valueOfDigits_cons, List.length_cons, Nat.pow_succ]
      calc (digit.toNat - '0'.toNat) * 10 ^ digits.length + valueOfDigits digits 0
          < 9 * 10 ^ digits.length + 10 ^ digits.length :=
            Nat.add_lt_add_of_le_of_lt (Nat.mul_le_mul_right _ small) below
        _ = 10 ^ digits.length * 10 := by omega

/-- As many digits with the same value are the same digits. -/
theorem eq_of_valueOfDigits_eq {left right : List Char} (sameLength : left.length = right.length)
    (eachLeft : ∀ c ∈ left, c.isDigit = true) (eachRight : ∀ c ∈ right, c.isDigit = true)
    (sameValue : valueOfDigits left 0 = valueOfDigits right 0) : left = right := by
  induction left generalizing right with
  | nil => exact (List.length_eq_zero_iff.mp sameLength.symm).symm
  | cons digit digits ih =>
      obtain ⟨other, others, rfl⟩ := List.exists_cons_of_length_eq_add_one sameLength.symm
      rw [List.length_cons, List.length_cons, Nat.add_right_cancel_iff] at sameLength
      rcases List.forall_mem_cons.mp eachLeft with ⟨isDigit, eachDigit⟩
      rcases List.forall_mem_cons.mp eachRight with ⟨otherIsDigit, eachOther⟩
      have small := valueOfDigits_lt eachDigit
      have otherSmall := valueOfDigits_lt eachOther
      rw [valueOfDigits_cons, valueOfDigits_cons, ← sameLength] at sameValue
      rw [← sameLength] at otherSmall
      -- The first digit is the quotient by a power of ten, and the others are the remainder.
      have quotient (first : Nat) {rest : Nat} (below : rest < 10 ^ digits.length) :
          (first * 10 ^ digits.length + rest) / 10 ^ digits.length = first := by
        rw [Nat.mul_comm, Nat.mul_add_div (Nat.pow_pos (by decide)), Nat.div_eq_of_lt below,
          Nat.add_zero]
      have samePlace : digit.toNat - '0'.toNat = other.toNat - '0'.toNat := by
        rw [← quotient (digit.toNat - '0'.toNat) small, sameValue, quotient _ otherSmall]
      rw [samePlace, Nat.add_left_cancel_iff] at sameValue
      have lower := le_toNat_of_isDigit isDigit
      have otherLower := le_toNat_of_isDigit otherIsDigit
      have zero : '0'.toNat = 48 := rfl
      have sameDigit : digit = other := Char.toNat_inj.mp (by omega)
      rw [sameDigit, ih sameLength eachDigit eachOther sameValue]

/-- A positive number is not written with a zero in front. -/
theorem head?_digitsOf_ne {n : Nat} (positive : 0 < n) : (digitsOf n).head? ≠ some '0' := by
  induction n using Nat.strongRecOn with
  | ind n ih =>
      rcases Nat.lt_or_ge n 10 with small | large
      · have each : ∀ n < 10, 0 < n → (digitsOf n).head? ≠ some '0' := by decide
        exact each n small positive
      · have shorter := ih (n / 10) (by omega) (by omega)
        rw [digitsOf, Nat.toDigits_of_base_le (by decide) large, List.head?_append]
        cases front : (Nat.toDigits 10 (n / 10)).head? with
        | none => exact absurd (List.head?_eq_none_iff.mp front) Nat.toDigits_ne_nil
        | some first =>
            rw [digitsOf, front] at shorter
            exact shorter

/-- Zeros in front do not change the value of digits. -/
theorem valueOfDigits_paddedDigits (width n : Nat) :
    valueOfDigits (paddedDigits width n) 0 = n := by
  rw [paddedDigits, valueOfDigits_append, valueOfDigits_zeros, Nat.zero_mul,
    valueOfDigits_digitsOf]

theorem readDigits?_paddedDigits (width n : Nat) : readDigits? (paddedDigits width n) = some n := by
  rw [readDigits?_eq (paddedDigits_ne_nil width n) fun _ => isDigit_of_mem_paddedDigits,
    valueOfDigits_paddedDigits]

theorem length_paddedDigits {width n : Nat} (positive : 0 < width) (small : n < 10 ^ width) :
    (paddedDigits width n).length = width := by
  have within : (digitsOf n).length ≤ width :=
    (Nat.length_toDigits_le_iff (by decide) positive).mpr small
  rw [paddedDigits, List.length_append, List.length_replicate]
  omega

/-- Digits are how their value is written at their own width. -/
theorem paddedDigits_of_readDigits? {digits : List Char} {n : Nat}
    (read : readDigits? digits = some n) : paddedDigits digits.length n = digits := by
  obtain ⟨⟨nonempty, each⟩, rfl⟩ := readDigits?_eq_some_iff.mp read
  apply eq_of_valueOfDigits_eq
  · exact length_paddedDigits (List.length_pos_iff.mpr nonempty) (valueOfDigits_lt each)
  · exact fun _ => isDigit_of_mem_paddedDigits
  · exact each
  · exact valueOfDigits_paddedDigits digits.length _

/-- A number below a hundred is written with two digits. -/
theorem paddedDigits_two {n : Nat} (small : n < 100) :
    ∃ a b, paddedDigits 2 n = [a, b] ∧ a.isDigit = true ∧ b.isDigit = true := by
  have length_eq : (paddedDigits 2 n).length = 2 := length_paddedDigits (by decide) small
  have digits : ∀ c ∈ paddedDigits 2 n, c.isDigit = true := fun _ => isDigit_of_mem_paddedDigits
  generalize paddedDigits 2 n = text at length_eq digits ⊢
  rcases text with _ | ⟨a, _ | ⟨b, _ | ⟨c, more⟩⟩⟩
  · simp at length_eq
  · simp at length_eq
  · exact ⟨a, b, rfl, digits a (by simp), digits b (by simp)⟩
  · simp at length_eq

/-- A number below ten thousand is written with four digits. -/
theorem paddedDigits_four {n : Nat} (small : n < 10000) :
    ∃ a b c d, paddedDigits 4 n = [a, b, c, d] ∧ a.isDigit = true ∧ b.isDigit = true ∧
      c.isDigit = true ∧ d.isDigit = true := by
  have length_eq : (paddedDigits 4 n).length = 4 := length_paddedDigits (by decide) small
  have digits : ∀ c ∈ paddedDigits 4 n, c.isDigit = true := fun _ => isDigit_of_mem_paddedDigits
  generalize paddedDigits 4 n = text at length_eq digits ⊢
  rcases text with _ | ⟨a, _ | ⟨b, _ | ⟨c, _ | ⟨d, _ | ⟨e, more⟩⟩⟩⟩⟩
  · simp at length_eq
  · simp at length_eq
  · simp at length_eq
  · simp at length_eq
  · exact ⟨a, b, c, d, rfl, digits a (by simp), digits b (by simp), digits c (by simp),
      digits d (by simp)⟩
  · simp at length_eq

/-- A number from a hundred on is written with three digits or more. -/
theorem digitsOf_hundreds {n : Nat} (large : 100 ≤ n) :
    ∃ a b c more, digitsOf n = a :: b :: c :: more := by
  have long : ¬ (digitsOf n).length ≤ 2 := by
    rw [digitsOf, Nat.length_toDigits_le_iff (by decide) (by decide)]
    omega
  generalize digitsOf n = text at long ⊢
  rcases text with _ | ⟨a, _ | ⟨b, _ | ⟨c, more⟩⟩⟩
  · simp at long
  · simp at long
  · simp at long
  · exact ⟨a, b, c, more, rfl⟩

/-- Two digits are read as a number below a hundred. -/
theorem readDigits?_two_lt {a b : Char} {n : Nat} (read : readDigits? [a, b] = some n) :
    n < 100 := by
  obtain ⟨⟨_, each⟩, rfl⟩ := readDigits?_eq_some_iff.mp read
  exact valueOfDigits_lt each

end FilterQuery
