import Mathlib.Data.List.Induction
import Mathlib.Data.Nat.Digits.Defs
import FilterQuery.Proofs.Value.ReadBack

/-!
# The forms of spans of time

A span is written as a clock or as a shorthand, and reading one is exact in both directions: a text
in one of the forms is read as the sum of its parts over all natural numbers, and no other text is
read.  A shorthand is refused exactly if that sum is out of range.  The two forms have no text in
common, since only a clock has a colon.
-/

namespace FilterQuery

/-- Digits that denote a number in the decimal system. -/
structure IsNumeral (digits : List Char) (n : Nat) : Prop where
  nonempty : digits ≠ []
  ascii : ∀ c ∈ digits, c.isDigit = true
  value : n = Nat.ofDigits 10 (digits.reverse.map fun c => c.toNat - '0'.toNat)

theorem valueOfDigits_eq_ofDigits (digits : List Char) :
    valueOfDigits digits 0 =
      Nat.ofDigits 10 (digits.reverse.map fun c => c.toNat - '0'.toNat) := by
  induction digits using List.reverseRecOn with
  | nil => rfl
  | append_singleton digits last ih =>
      rw [valueOfDigits_append, ih, List.reverse_append, List.reverse_singleton,
        List.singleton_append, List.map_cons, Nat.ofDigits_cons, Nat.add_comm]
      rfl

/-- A text is read as digits exactly if it is a numeral. -/
theorem readDigits?_eq_some_iff_isNumeral {text : List Char} {n : Nat} :
    readDigits? text = some n ↔ IsNumeral text n := by
  rw [readDigits?_eq_some_iff, valueOfDigits_eq_ofDigits]
  constructor
  · rintro ⟨⟨nonempty, ascii⟩, value⟩
    exact ⟨nonempty, ascii, value.symm⟩
  · intro numeral
    exact ⟨⟨numeral.nonempty, numeral.ascii⟩, numeral.value.symm⟩

namespace Duration

/-! ## The forms -/

/-- A text of two digits that denotes a number. -/
def IsPair (text : List Char) (n : Nat) : Prop :=
  text.length = 2 ∧ IsNumeral text n

/-- A text shows a number of seconds as a clock, with or without seconds. -/
inductive IsClock : List Char → Nat → Prop
  | short {hours minutes : List Char} {h m : Nat} (hoursPair : IsPair hours h)
      (minutesPair : IsPair minutes m) (minutes_lt : m < 60) :
      IsClock (hours ++ ':' :: minutes) (3600 * h + 60 * m)
  | full {hours minutes seconds : List Char} {h m s : Nat} (hoursPair : IsPair hours h)
      (minutesPair : IsPair minutes m) (secondsPair : IsPair seconds s) (minutes_lt : m < 60)
      (seconds_lt : s < 60) :
      IsClock (hours ++ ':' :: minutes ++ ':' :: seconds) (3600 * h + 60 * m + s)

/-- A text is a part of a shorthand for a number of units: digits and the unit letter, behind an
optional space where one may stand.  A part that is left out counts nothing. -/
inductive IsPart (mayBeSpaced : Bool) (unit : Char) : List Char → Nat → Prop
  | missing : IsPart mayBeSpaced unit [] 0
  | given {space digits : List Char} {letter : Char} {n : Nat}
      (spaced : space = [] ∨ (mayBeSpaced = true ∧ space = [' '])) (numeral : IsNumeral digits n)
      (same : Character.sameLetter letter unit = true) :
      IsPart mayBeSpaced unit (space ++ (digits ++ [letter])) n

/-- A text that is not empty shows a number of seconds by its hours, minutes and seconds. -/
structure IsShorthand (text : List Char) (n : Nat) : Prop where
  nonempty : text ≠ []
  parts : ∃ hours minutes seconds h m s, text = hours ++ (minutes ++ seconds) ∧
    IsPart false 'h' hours h ∧ IsPart true 'm' minutes m ∧ IsPart true 's' seconds s ∧
    n = 3600 * h + 60 * m + s

/-! ## Clocks -/

theorem exists_of_isPair {text : List Char} {n : Nat} (pair : IsPair text n) :
    ∃ a b, text = [a, b] ∧ readDigits? [a, b] = some n := by
  obtain ⟨two, numeral⟩ := pair
  rcases text with _ | ⟨a, _ | ⟨b, _ | ⟨c, more⟩⟩⟩
  · simp at two
  · simp at two
  · exact ⟨a, b, rfl, readDigits?_eq_some_iff_isNumeral.mpr numeral⟩
  · simp at two

theorem isPair_of_readDigits? {a b : Char} {n : Nat} (read : readDigits? [a, b] = some n) :
    IsPair [a, b] n :=
  ⟨rfl, readDigits?_eq_some_iff_isNumeral.mp read⟩

theorem ofClockParts?_eq_some_iff {hours minutes seconds n : Nat} :
    ofClockParts? hours minutes seconds = some n ↔
      (minutes < 60 ∧ seconds < 60) ∧ total hours minutes seconds = n := by
  rw [ofClockParts?, Option.ite_none_right_eq_some, Option.some.injEq]

/-- A text is read as a clock exactly if it is one. -/
theorem ofClock?_eq_some_iff {text : List Char} {n : Nat} :
    ofClock? text = some n ↔ IsClock text n := by
  constructor
  · intro read
    unfold ofClock? at read
    split at read
    · next h₁ h₂ m₁ m₂ =>
        obtain ⟨h, readHours, read⟩ := Option.bind_eq_some_iff.mp read
        obtain ⟨m, readMinutes, read⟩ := Option.bind_eq_some_iff.mp read
        obtain ⟨⟨minutes_lt, _⟩, rfl⟩ := ofClockParts?_eq_some_iff.mp read
        exact IsClock.short (isPair_of_readDigits? readHours) (isPair_of_readDigits? readMinutes)
          minutes_lt
    · next h₁ h₂ m₁ m₂ s₁ s₂ =>
        obtain ⟨h, readHours, read⟩ := Option.bind_eq_some_iff.mp read
        obtain ⟨m, readMinutes, read⟩ := Option.bind_eq_some_iff.mp read
        obtain ⟨s, readSeconds, read⟩ := Option.bind_eq_some_iff.mp read
        obtain ⟨⟨minutes_lt, seconds_lt⟩, rfl⟩ := ofClockParts?_eq_some_iff.mp read
        exact IsClock.full (isPair_of_readDigits? readHours) (isPair_of_readDigits? readMinutes)
          (isPair_of_readDigits? readSeconds) minutes_lt seconds_lt
    · contradiction
  · intro clock
    cases clock with
    | short hoursPair minutesPair minutes_lt =>
        obtain ⟨h₁, h₂, rfl, readHours⟩ := exists_of_isPair hoursPair
        obtain ⟨m₁, m₂, rfl, readMinutes⟩ := exists_of_isPair minutesPair
        change (readDigits? [h₁, h₂]).bind _ = _
        rw [readHours, Option.bind_some]
        change (readDigits? [m₁, m₂]).bind _ = _
        rw [readMinutes, Option.bind_some]
        exact ofClockParts?_eq_some_iff.mpr ⟨⟨minutes_lt, by decide⟩, rfl⟩
    | full hoursPair minutesPair secondsPair minutes_lt seconds_lt =>
        obtain ⟨h₁, h₂, rfl, readHours⟩ := exists_of_isPair hoursPair
        obtain ⟨m₁, m₂, rfl, readMinutes⟩ := exists_of_isPair minutesPair
        obtain ⟨s₁, s₂, rfl, readSeconds⟩ := exists_of_isPair secondsPair
        change (readDigits? [h₁, h₂]).bind _ = _
        rw [readHours, Option.bind_some]
        change (readDigits? [m₁, m₂]).bind _ = _
        rw [readMinutes, Option.bind_some]
        change (readDigits? [s₁, s₂]).bind _ = _
        rw [readSeconds, Option.bind_some]
        exact ofClockParts?_eq_some_iff.mpr ⟨⟨minutes_lt, seconds_lt⟩, rfl⟩

/-! ## Parts of a shorthand -/

/-- The letter of a unit is no digit in any of its spellings. -/
theorem isDigit_of_sameLetter {letter unit : Char} (notDigit : unit.isDigit = false)
    (same : Character.sameLetter letter unit = true) : letter.isDigit = false := by
  rcases digit : letter.isDigit with _ | _
  · rfl
  · have ascii : letter.toNat < 0x80 := Nat.lt_of_le_of_lt (toNat_le_of_isDigit digit) (by decide)
    have notAlpha : letter.isAlpha = false :=
      Character.of_ascii (fun c => c.isDigit = true → c.isAlpha = false) ascii (by decide)
        digit
    rw [Character.eq_of_sameLetter ascii notAlpha same, digit] at notDigit
    contradiction

theorem readPart?_numeral {unit letter : Char} {digits : List Char} {n : Nat}
    (numeral : IsNumeral digits n) (notDigit : letter.isDigit = false) (rest : List Char) :
    readPart? unit (digits ++ letter :: rest) =
      if Character.sameLetter letter unit then some (n, rest) else none := by
  rw [readPart?, List.dropWhile_append_of_pos numeral.ascii,
    List.takeWhile_append_of_pos numeral.ascii]
  simp [notDigit, readDigits?_eq_some_iff_isNumeral.mpr numeral]

theorem readPart?_eq_some {unit : Char} {text rest : List Char} {n : Nat}
    (read : readPart? unit text = some (n, rest)) :
    ∃ digits letter, text = digits ++ letter :: rest ∧ IsNumeral digits n ∧
      Character.sameLetter letter unit = true := by
  unfold readPart? at read
  split at read
  · next letter more shape =>
      split at read
      · next same =>
          obtain ⟨value, readValue, parts⟩ := Option.map_eq_some_iff.mp read
          cases parts
          refine ⟨_, letter, ?_, readDigits?_eq_some_iff_isNumeral.mp readValue, same⟩
          rw [← shape, List.takeWhile_append_dropWhile]
      · contradiction
  · contradiction

/-- Read a part of a shorthand if there is one, and what follows. -/
def takePart (mayBeSpaced : Bool) (unit : Char) (text : List Char) : Nat × List Char :=
  (readPart? unit (if mayBeSpaced then dropSpace text else text)).getD (0, text)

/-- The three parts of a shorthand are taken one after another. -/
theorem readParts_eq_iff {text rest : List Char} {h m s : Nat} :
    readParts text = ((h, m, s), rest) ↔ ∃ afterHours afterMinutes,
      takePart false 'h' text = (h, afterHours) ∧ takePart true 'm' afterHours = (m, afterMinutes) ∧
      takePart true 's' afterMinutes = (s, rest) := by
  let afterHours := (takePart false 'h' text).2
  let afterMinutes := (takePart true 'm' afterHours).2
  have parts : readParts text = (((takePart false 'h' text).1, (takePart true 'm' afterHours).1,
      (takePart true 's' afterMinutes).1), (takePart true 's' afterMinutes).2) := rfl
  constructor
  · intro read
    rw [parts, Prod.mk.injEq, Prod.mk.injEq, Prod.mk.injEq] at read
    obtain ⟨⟨rfl, rfl, rfl⟩, rfl⟩ := read
    exact ⟨afterHours, afterMinutes, rfl, rfl, rfl⟩
  · rintro ⟨_, _, takenHours, takenMinutes, takenSeconds⟩
    simp only [parts, afterMinutes, afterHours, takenHours, takenMinutes, takenSeconds]

/-- What is taken off a text is a part of a shorthand. -/
theorem isPart_of_takePart {mayBeSpaced : Bool} {unit : Char} {text rest : List Char} {n : Nat}
    (taken : takePart mayBeSpaced unit text = (n, rest)) :
    ∃ part, text = part ++ rest ∧ IsPart mayBeSpaced unit part n := by
  rw [takePart] at taken
  rcases read : readPart? unit (if mayBeSpaced then dropSpace text else text) with _ | parts
  · rw [read] at taken
    cases taken
    exact ⟨[], rfl, .missing⟩
  · rw [read] at taken
    cases taken
    obtain ⟨digits, letter, shape, numeral, same⟩ := readPart?_eq_some read
    have bare : text = digits ++ letter :: rest →
        ∃ part, text = part ++ rest ∧ IsPart mayBeSpaced unit part n := by
      rintro rfl
      exact ⟨digits ++ [letter], by simp, .given (Or.inl rfl) numeral same⟩
    cases mayBeSpaced with
    | false => exact bare shape
    | true =>
        rw [if_pos rfl] at shape
        unfold dropSpace at shape
        split at shape
        · subst shape
          exact ⟨' ' :: (digits ++ [letter]), by simp, .given (Or.inr ⟨rfl, rfl⟩) numeral same⟩
        · exact bare shape

/-- No part of a unit stands at the front of a text, with or without a space. -/
def LacksPart (unit : Char) (text : List Char) : Prop :=
  readPart? unit text = none ∧ readPart? unit (dropSpace text) = none

theorem lacksPart_nil (unit : Char) : LacksPart unit [] :=
  ⟨rfl, rfl⟩

theorem dropSpace_numeral {digits : List Char} {n : Nat} (numeral : IsNumeral digits n)
    (rest : List Char) : dropSpace (digits ++ rest) = digits ++ rest := by
  obtain ⟨first, more, rfl⟩ := List.exists_cons_of_ne_nil numeral.nonempty
  have digit : first.isDigit = true := numeral.ascii first List.mem_cons_self
  rw [List.cons_append]
  unfold dropSpace
  split
  · next shape =>
      cases shape
      contradiction
  · rfl

theorem readPart?_space {unit : Char} (notSpace : Character.sameLetter ' ' unit = false)
    (text : List Char) : readPart? unit (' ' :: text) = none := by
  have stops : (' ' :: text).dropWhile Char.isDigit = ' ' :: text := rfl
  rw [readPart?, stops]
  simp [notSpace]

/-- The unit letters of a shorthand. -/
def units : List Char :=
  ['h', 'm', 's']

theorem units_facts {unit : Char} (member : unit ∈ units) :
    unit.isDigit = false ∧ Character.sameLetter ' ' unit = false ∧ unit ≠ ':' := by
  simp only [units, List.mem_cons, List.not_mem_nil, or_false] at member
  rcases member with rfl | rfl | rfl
  · decide
  · decide
  · decide

/-- A part of one unit is not taken for a part of another. -/
theorem IsPart.lacksPart {mayBeSpaced : Bool} {unit other : Char} {part rest : List Char} {n : Nat}
    (isPart : IsPart mayBeSpaced other part n) (known : unit ∈ units) (otherKnown : other ∈ units)
    (different : Character.sameLetter other unit = false) (lacks : LacksPart unit rest) :
    LacksPart unit (part ++ rest) := by
  cases isPart with
  | missing => exact lacks
  | @given space digits letter _ spaced numeral same =>
      have notUnit : Character.sameLetter letter unit = false := by
        simp only [Character.sameLetter, beq_iff_eq] at same
        rwa [Character.sameLetter, same, ← Character.sameLetter]
      have refused : readPart? unit (digits ++ letter :: rest) = none := by
        rw [readPart?_numeral numeral (isDigit_of_sameLetter (units_facts otherKnown).1 same),
          notUnit]
        rfl
      rcases spaced with rfl | ⟨_, rfl⟩
      · have shape : [] ++ (digits ++ [letter]) ++ rest = digits ++ letter :: rest := by simp
        rw [shape, LacksPart, dropSpace_numeral numeral]
        exact ⟨refused, refused⟩
      · have shape : [' '] ++ (digits ++ [letter]) ++ rest = ' ' :: (digits ++ letter :: rest) := by
          simp
        rw [shape]
        exact ⟨readPart?_space (units_facts known).2.1 _, refused⟩

/-- A part is taken as a whole if no other part of its unit follows. -/
theorem takePart_isPart {mayBeSpaced : Bool} {unit : Char} {part rest : List Char} {n : Nat}
    (isPart : IsPart mayBeSpaced unit part n) (known : unit ∈ units)
    (lacks : LacksPart unit rest) :
    takePart mayBeSpaced unit (part ++ rest) = (n, rest) := by
  cases isPart with
  | missing =>
      have refused : readPart? unit (if mayBeSpaced then dropSpace rest else rest) = none := by
        cases mayBeSpaced
        · exact lacks.1
        · exact lacks.2
      rw [List.nil_append, takePart, refused]
      rfl
  | @given space digits letter _ spaced numeral same =>
      have read : readPart? unit (digits ++ letter :: rest) = some (n, rest) := by
        rw [readPart?_numeral numeral (isDigit_of_sameLetter (units_facts known).1 same), if_pos same]
      have dropped : (if mayBeSpaced then dropSpace (space ++ (digits ++ [letter]) ++ rest)
          else space ++ (digits ++ [letter]) ++ rest) = digits ++ letter :: rest := by
        rcases spaced with rfl | ⟨rfl, rfl⟩
        · have shape : [] ++ (digits ++ [letter]) ++ rest = digits ++ letter :: rest := by simp
          rw [shape, dropSpace_numeral numeral, ite_self]
        · rw [if_pos rfl]
          simp [dropSpace]
      rw [takePart, dropped, read]
      rfl

/-! ## Shorthands -/

/-- A text is read as a shorthand exactly if it is one and its sum is in range. -/
theorem ofShorthand?_eq_some_iff {text : List Char} {n : Nat} :
    ofShorthand? text = some n ↔ IsShorthand text n ∧ n < 2 ^ 63 := by
  constructor
  · intro read
    unfold ofShorthand? at read
    split at read
    · next first more hours minutes seconds parts =>
        obtain ⟨sum, bounded⟩ := ofShorthandParts?_eq_some_iff.mp read
        obtain ⟨_, _, takenHours, takenMinutes, takenSeconds⟩ := readParts_eq_iff.mp parts
        obtain ⟨hoursText, shape, hoursPart⟩ := isPart_of_takePart takenHours
        obtain ⟨minutesText, rfl, minutesPart⟩ := isPart_of_takePart takenMinutes
        obtain ⟨secondsText, rfl, secondsPart⟩ := isPart_of_takePart takenSeconds
        rw [List.append_nil] at shape
        exact ⟨⟨List.cons_ne_nil first more, hoursText, minutesText, secondsText, hours, minutes,
          seconds, shape, hoursPart, minutesPart, secondsPart, sum.symm⟩, bounded⟩
    · contradiction
  · rintro ⟨⟨nonempty, hoursText, minutesText, secondsText, hours, minutes, seconds, rfl, hoursPart,
      minutesPart, secondsPart, sum⟩, bounded⟩
    have noMinutes : LacksPart 'm' secondsText := by
      rw [← List.append_nil secondsText]
      exact secondsPart.lacksPart (by decide) (by decide) (by decide) (lacksPart_nil 'm')
    have noHours : LacksPart 'h' (minutesText ++ secondsText) := by
      apply minutesPart.lacksPart (by decide) (by decide) (by decide)
      rw [← List.append_nil secondsText]
      exact secondsPart.lacksPart (by decide) (by decide) (by decide) (lacksPart_nil 'h')
    have takeSeconds : takePart true 's' secondsText = (seconds, []) := by
      have taken := takePart_isPart secondsPart (by decide) (lacksPart_nil 's')
      rwa [List.append_nil] at taken
    have parts : readParts (hoursText ++ (minutesText ++ secondsText)) =
        ((hours, minutes, seconds), []) :=
      readParts_eq_iff.mpr ⟨_, _, takePart_isPart hoursPart (by decide) noHours,
        takePart_isPart minutesPart (by decide) noMinutes, takeSeconds⟩
    obtain ⟨first, more, shape⟩ := List.exists_cons_of_ne_nil nonempty
    rw [shape] at parts ⊢
    simp only [ofShorthand?, parts]
    exact ofShorthandParts?_eq_some_iff.mpr ⟨sum.symm, bounded⟩

/-! ## Both forms -/

theorem colon_mem_of_isClock {text : List Char} {n : Nat} (clock : IsClock text n) :
    ':' ∈ text := by
  cases clock with
  | short => simp
  | full => simp

theorem IsPart.colon_not_mem {mayBeSpaced : Bool} {unit : Char} {part : List Char} {n : Nat}
    (isPart : IsPart mayBeSpaced unit part n) (known : unit ∈ units) : ':' ∉ part := by
  cases isPart with
  | missing => exact List.not_mem_nil
  | @given space digits letter _ spaced numeral same =>
      rintro member
      rcases List.mem_append.mp member with inSpace | inPart
      · rcases spaced with rfl | ⟨_, rfl⟩
        · contradiction
        · contradiction
      · rcases List.mem_append.mp inPart with inDigits | inLetter
        · exact absurd (numeral.ascii ':' inDigits) (by decide)
        · cases List.mem_singleton.mp inLetter
          exact (units_facts known).2.2
            (Character.eq_of_sameLetter (by decide) (by decide) same)

theorem IsShorthand.colon_not_mem {text : List Char} {n : Nat} (shorthand : IsShorthand text n) :
    ':' ∉ text := by
  obtain ⟨_, _, _, _, _, _, _, rfl, hoursPart, minutesPart, secondsPart, _⟩ := shorthand
  simp only [List.mem_append, not_or]
  exact ⟨hoursPart.colon_not_mem (by decide), minutesPart.colon_not_mem (by decide),
    secondsPart.colon_not_mem (by decide)⟩

/-- A text shows a span of time in one of the two forms, within the range of spans. -/
def Shows (text : List Char) (n : Nat) : Prop :=
  IsClock text n ∨ (IsShorthand text n ∧ n < 2 ^ 63)

/-- A text is read as a span exactly if it shows it. -/
theorem ofChars?_eq_some_iff {text : List Char} {n : Nat} :
    ofChars? text = some n ↔ Shows text n := by
  rw [ofChars?, Option.or_eq_some_iff, ofClock?_eq_some_iff, ofShorthand?_eq_some_iff, Shows]
  constructor
  · rintro (clock | ⟨_, shorthand⟩)
    · exact Or.inl clock
    · exact Or.inr shorthand
  · rintro (clock | ⟨shorthand, bounded⟩)
    · exact Or.inl clock
    · refine Or.inr ⟨?_, shorthand, bounded⟩
      rcases read : ofClock? text with _ | m
      · rfl
      · exact absurd (colon_mem_of_isClock (ofClock?_eq_some_iff.mp read))
          shorthand.colon_not_mem

end Duration

/-- Reading a span of time is exact: a text is read as the span that it shows, a text that shows no
span is refused, and what is read is neither negative nor out of range. -/
theorem FieldType.cast?_time (isArray : Bool) (text : String) :
    (∀ value, cast? ⟨.time, isArray⟩ text = some value ↔
      ∃ n : Nat, value = .time n ∧ Duration.Shows text.toList n) ∧
    (cast? ⟨.time, isArray⟩ text = none ↔ ∀ n, ¬ Duration.Shows text.toList n) ∧
    (∀ seconds, cast? ⟨.time, isArray⟩ text = some (.time seconds) →
      0 ≤ seconds ∧ seconds < 2 ^ 63) := by
  have read_iff : ∀ value, cast? ⟨.time, isArray⟩ text = some value ↔
      ∃ n : Nat, value = .time n ∧ Duration.Shows text.toList n := by
    intro value
    simp only [cast?, ValueType.cast?, Option.map_eq_some_iff, Option.bind_eq_bind,
      Option.bind_eq_some_iff, Option.pure_def, Option.some.injEq,
      Duration.ofChars?_eq_some_iff]
    constructor
    · rintro ⟨_, ⟨n, shows, rfl⟩, rfl⟩
      exact ⟨n, rfl, shows⟩
    · rintro ⟨n, rfl, shows⟩
      exact ⟨n, ⟨n, shows, rfl⟩, rfl⟩
  refine ⟨read_iff, ?_, ?_⟩
  · rw [Option.eq_none_iff_forall_ne_some]
    constructor
    · intro refused n shows
      exact refused (.time n) ((read_iff _).mpr ⟨n, rfl, shows⟩)
    · intro refused value read
      obtain ⟨n, _, shows⟩ := (read_iff value).mp read
      exact refused n shows
  · intro seconds read
    obtain ⟨n, same, shows⟩ := (read_iff _).mp read
    cases same
    have bounded := Duration.lt_of_ofChars? (Duration.ofChars?_eq_some_iff.mpr shows)
    omega

end FilterQuery
