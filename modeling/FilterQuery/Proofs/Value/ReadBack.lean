import FilterQuery.Proofs.Text.Digits
import FilterQuery.Value

/-!
# Display texts read back

The display text of a day, of a moment and of a span of time is read back as the same value.  A
text is read back with quotes around it, and without them as long as none stands at its ends.
-/

namespace FilterQuery

/-! ## Days and moments -/

theorem daysInMonth_eq_zero {year month : Nat} (beyond : 12 < month) :
    daysInMonth year month = 0 := by
  unfold daysInMonth
  split <;> omega

theorem Date.month_le (date : Date) : date.month ≤ 12 := by
  apply Nat.le_of_not_lt
  intro beyond
  have positive := Nat.le_trans date.day_pos date.day_le
  rw [daysInMonth_eq_zero beyond] at positive
  contradiction

theorem daysInMonth_le (year month : Nat) : daysInMonth year month ≤ 31 := by
  unfold daysInMonth
  repeat' split
  all_goals decide

/-- The characters of a date are digits with two dashes between them. -/
theorem Date.toChars_eq (date : Date) :
    ∃ y₁ y₂ y₃ y₄ m₁ m₂ d₁ d₂ : Char,
      date.toChars = [y₁, y₂, y₃, y₄, '-', m₁, m₂, '-', d₁, d₂] ∧
      readDigits? [y₁, y₂, y₃, y₄] = some date.year ∧ readDigits? [m₁, m₂] = some date.month ∧
      readDigits? [d₁, d₂] = some date.day ∧
      ∀ c ∈ [y₁, y₂, y₃, y₄, m₁, m₂, d₁, d₂], c.isDigit = true := by
  have month_le := date.month_le
  have day_le := Nat.le_trans date.day_le (daysInMonth_le date.year date.month)
  rcases paddedDigits_four (Nat.lt_succ_of_le date.year_le) with
    ⟨y₁, y₂, y₃, y₄, year, digit₁, digit₂, digit₃, digit₄⟩
  obtain ⟨m₁, m₂, month, digit₅, digit₆⟩ := paddedDigits_two (n := date.month) (by omega)
  obtain ⟨d₁, d₂, day, digit₇, digit₈⟩ := paddedDigits_two (n := date.day) (by omega)
  refine ⟨y₁, y₂, y₃, y₄, m₁, m₂, d₁, d₂, ?_, ?_, ?_, ?_, ?_⟩
  · rw [toChars, year, month, day]
    rfl
  · rw [← year, readDigits?_paddedDigits]
  · rw [← month, readDigits?_paddedDigits]
  · rw [← day, readDigits?_paddedDigits]
  · simp [digit₁, digit₂, digit₃, digit₄, digit₅, digit₆, digit₇, digit₈]

theorem Date.ofChars?_toChars (date : Date) : ofChars? date.toChars = some date := by
  rcases date.toChars_eq with ⟨y₁, y₂, y₃, y₄, m₁, m₂, d₁, d₂, shape, year, month, day, _⟩
  rw [shape, ofChars?, year, month, day]
  exact dif_pos ⟨date.year_le, date.day_pos, date.day_le⟩

/-- The characters of a date are those it is read from. -/
theorem Date.toChars_of_ofChars? {text : List Char} {date : Date}
    (read : ofChars? text = some date) : date.toChars = text := by
  unfold ofChars? at read
  split at read
  · obtain ⟨year, readYear, read⟩ := Option.bind_eq_some_iff.mp read
    obtain ⟨month, readMonth, read⟩ := Option.bind_eq_some_iff.mp read
    obtain ⟨day, readDay, read⟩ := Option.bind_eq_some_iff.mp read
    obtain ⟨_, same⟩ := Option.dite_none_right_eq_some.mp read
    cases same
    have yearChars : paddedDigits 4 year = _ := paddedDigits_of_readDigits? readYear
    have monthChars : paddedDigits 2 month = _ := paddedDigits_of_readDigits? readMonth
    have dayChars : paddedDigits 2 day = _ := paddedDigits_of_readDigits? readDay
    rw [toChars, yearChars, monthChars, dayChars]
    rfl
  · contradiction

theorem colon_not_mem_paddedDigits (width n : Nat) : ':' ∉ paddedDigits width n :=
  fun member => absurd (isDigit_of_mem_paddedDigits member) (by decide)

theorem Date.colon_not_mem_toChars (date : Date) : ':' ∉ date.toChars := by
  simp [toChars, colon_not_mem_paddedDigits]

/-- The characters of a moment are those of its date and digits with two colons between them. -/
theorem DateTime.toChars_eq (moment : DateTime) :
    ∃ h₁ h₂ m₁ m₂ s₁ s₂ : Char,
      moment.toChars = moment.date.toChars ++ [' ', h₁, h₂, ':', m₁, m₂, ':', s₁, s₂] ∧
      readDigits? [h₁, h₂] = some moment.hour ∧ readDigits? [m₁, m₂] = some moment.minute ∧
      readDigits? [s₁, s₂] = some moment.second ∧
      ∀ c ∈ [h₁, h₂, m₁, m₂, s₁, s₂], c.isDigit = true := by
  have hour_le := moment.hour_le
  have minute_le := moment.minute_le
  have second_le := moment.second_le
  obtain ⟨h₁, h₂, hour, digit₁, digit₂⟩ := paddedDigits_two (n := moment.hour) (by omega)
  obtain ⟨m₁, m₂, minute, digit₃, digit₄⟩ := paddedDigits_two (n := moment.minute) (by omega)
  obtain ⟨s₁, s₂, second, digit₅, digit₆⟩ := paddedDigits_two (n := moment.second) (by omega)
  refine ⟨h₁, h₂, m₁, m₂, s₁, s₂, ?_, ?_, ?_, ?_, ?_⟩
  · rw [toChars, hour, minute, second]
    simp
  · rw [← hour, readDigits?_paddedDigits]
  · rw [← minute, readDigits?_paddedDigits]
  · rw [← second, readDigits?_paddedDigits]
  · simp [digit₁, digit₂, digit₃, digit₄, digit₅, digit₆]

theorem DateTime.ofChars?_toChars (moment : DateTime) :
    ofChars? moment.toChars = some moment := by
  rcases moment.toChars_eq with ⟨h₁, h₂, m₁, m₂, s₁, s₂, shape, hour, minute, second, _⟩
  have ten : moment.date.toChars.length = 10 := by
    rcases moment.date.toChars_eq with ⟨_, _, _, _, _, _, _, _, date, _⟩
    rw [date]
    rfl
  rw [shape, ofChars?, ← ten, List.drop_left, List.take_left]
  simp only [moment.date.ofChars?_toChars, Option.bind_some, readTime?, hour, minute, second]
  exact dif_pos ⟨moment.hour_le, moment.minute_le, moment.second_le⟩

/-- The characters of a moment are those it is read from, if seconds are among them. -/
theorem DateTime.toChars_of_ofChars? {text : List Char} {moment : DateTime}
    (read : ofChars? text = some moment) (withSeconds : text.count ':' = 2) :
    moment.toChars = text := by
  unfold ofChars? at read
  split at read
  · next time shape =>
      obtain ⟨date, readDate, readTime⟩ := Option.bind_eq_some_iff.mp read
      have dateChars := Date.toChars_of_ofChars? readDate
      have text_eq : text = date.toChars ++ ' ' :: time := by
        rw [dateChars, ← shape, List.take_append_drop]
      unfold readTime? at readTime
      split at readTime
      · obtain ⟨hour, readHour, readTime⟩ := Option.bind_eq_some_iff.mp readTime
        obtain ⟨minute, readMinute, _⟩ := Option.bind_eq_some_iff.mp readTime
        have hourChars : paddedDigits 2 hour = _ := paddedDigits_of_readDigits? readHour
        have minuteChars : paddedDigits 2 minute = _ := paddedDigits_of_readDigits? readMinute
        have oneColon : text = date.toChars ++ ' ' ::
            (paddedDigits 2 hour ++ ':' :: paddedDigits 2 minute) := by
          rw [text_eq, hourChars, minuteChars]
          rfl
        have count_eq : text.count ':' = 1 := by
          rw [oneColon, List.count_append, List.count_cons_of_ne (by decide), List.count_append,
            List.count_cons_self, List.count_eq_zero.mpr date.colon_not_mem_toChars,
            List.count_eq_zero.mpr (colon_not_mem_paddedDigits 2 hour),
            List.count_eq_zero.mpr (colon_not_mem_paddedDigits 2 minute)]
        omega
      · obtain ⟨hour, readHour, readTime⟩ := Option.bind_eq_some_iff.mp readTime
        obtain ⟨minute, readMinute, readTime⟩ := Option.bind_eq_some_iff.mp readTime
        obtain ⟨second, readSecond, readTime⟩ := Option.bind_eq_some_iff.mp readTime
        obtain ⟨_, same⟩ := Option.dite_none_right_eq_some.mp readTime
        cases same
        have hourChars : paddedDigits 2 hour = _ := paddedDigits_of_readDigits? readHour
        have minuteChars : paddedDigits 2 minute = _ := paddedDigits_of_readDigits? readMinute
        have secondChars : paddedDigits 2 second = _ := paddedDigits_of_readDigits? readSecond
        rw [text_eq, toChars, hourChars, minuteChars, secondChars]
        simp
      · contradiction
  · contradiction

/-! ## Spans of time -/

theorem paddedInteger_natCast (width n : Nat) : paddedInteger width n = paddedDigits width n := by
  rw [paddedInteger, if_neg (by omega), Int.natAbs_natCast]

namespace Duration

/-- Hours, minutes and seconds of a span make it up again. -/
theorem total_parts (n : Nat) : total (n / 3600) (n % 3600 / 60) (n % 60) = n := by
  rw [total]
  omega

/-- A span below a hundred hours is shown as a clock. -/
theorem toChars_clock {n : Nat} (short : n / 3600 < 100) :
    toChars n = paddedDigits 2 (n / 3600) ++ ':' :: paddedDigits 2 (n % 3600 / 60) ++
      ':' :: paddedDigits 2 (n % 60) := by
  have hours : (n : Int).tdiv 3600 = (n / 3600 : Nat) := rfl
  have minutes : ((n : Int).tmod 3600).tdiv 60 = (n % 3600 / 60 : Nat) := rfl
  have seconds : (n : Int).tmod 60 = (n % 60 : Nat) := rfl
  simp only [toChars, hours, minutes, seconds, paddedInteger_natCast]
  rw [if_pos (by omega)]

/-- A span of a hundred hours or more is shown as a shorthand. -/
theorem toChars_shorthand {n : Nat} (long : 100 ≤ n / 3600) :
    toChars n = digitsOf (n / 3600) ++ 'h' :: ' ' :: (digitsOf (n % 3600 / 60) ++
      'm' :: ' ' :: (digitsOf (n % 60) ++ ['s'])) := by
  have hours : (n : Int).tdiv 3600 = (n / 3600 : Nat) := rfl
  have minutes : ((n : Int).tmod 3600).tdiv 60 = (n % 3600 / 60 : Nat) := rfl
  have seconds : (n : Int).tmod 60 = (n % 60 : Nat) := rfl
  simp only [toChars, hours, minutes, seconds, paddedInteger_natCast]
  rw [if_neg (by omega)]
  simp [paddedDigits]

/-- The characters of a clock are digits with two colons between them. -/
theorem toChars_clock_eq {n : Nat} (short : n / 3600 < 100) :
    ∃ h₁ h₂ m₁ m₂ s₁ s₂ : Char, toChars n = [h₁, h₂, ':', m₁, m₂, ':', s₁, s₂] ∧
      readDigits? [h₁, h₂] = some (n / 3600) ∧ readDigits? [m₁, m₂] = some (n % 3600 / 60) ∧
      readDigits? [s₁, s₂] = some (n % 60) ∧ ∀ c ∈ [h₁, h₂, m₁, m₂, s₁, s₂], c.isDigit = true := by
  obtain ⟨h₁, h₂, hour, digit₁, digit₂⟩ := paddedDigits_two short
  obtain ⟨m₁, m₂, minute, digit₃, digit₄⟩ := paddedDigits_two (n := n % 3600 / 60) (by omega)
  obtain ⟨s₁, s₂, second, digit₅, digit₆⟩ := paddedDigits_two (n := n % 60) (by omega)
  refine ⟨h₁, h₂, m₁, m₂, s₁, s₂, ?_, ?_, ?_, ?_, ?_⟩
  · rw [toChars_clock short, hour, minute, second]
    rfl
  · rw [← hour, readDigits?_paddedDigits]
  · rw [← minute, readDigits?_paddedDigits]
  · rw [← second, readDigits?_paddedDigits]
  · simp [digit₁, digit₂, digit₃, digit₄, digit₅, digit₆]

theorem ofClock?_toChars {n : Nat} (short : n / 3600 < 100) : ofClock? (toChars n) = some n := by
  obtain ⟨h₁, h₂, m₁, m₂, s₁, s₂, shape, hour, minute, second, _⟩ := toChars_clock_eq short
  have parts := total_parts n
  rw [shape, ofClock?, hour, minute, second]
  change ofClockParts? (n / 3600) (n % 3600 / 60) (n % 60) = some n
  rw [ofClockParts?, if_pos (by omega), parts]

/-- Digits in front of a unit letter are read as one part. -/
theorem readPart?_digitsOf {unit : Char} (n : Nat) (rest : List Char)
    (letter : unit.isDigit = false) :
    readPart? unit (digitsOf n ++ unit :: rest) = some (n, rest) := by
  have digits : ∀ c ∈ digitsOf n, c.isDigit = true := fun _ => isDigit_of_mem_digitsOf
  have value := readDigits?_paddedDigits 0 n
  rw [paddedDigits, Nat.zero_sub, List.replicate_zero, List.nil_append] at value
  rw [readPart?, List.dropWhile_append_of_pos digits, List.takeWhile_append_of_pos digits]
  simp [letter, Character.sameLetter, value]

theorem readParts_toChars {n : Nat} (long : 100 ≤ n / 3600) :
    readParts (toChars n) = ((n / 3600, n % 3600 / 60, n % 60), []) := by
  rw [toChars_shorthand long, readParts]
  simp only [readPart?_digitsOf _ _ (show 'h'.isDigit = false from rfl), Option.getD_some,
    dropSpace, readPart?_digitsOf _ _ (show 'm'.isDigit = false from rfl),
    readPart?_digitsOf _ _ (show 's'.isDigit = false from rfl)]

theorem inRange?_eq_some_iff {n m : Nat} : inRange? n = some m ↔ n = m ∧ n < 2 ^ 63 := by
  rw [inRange?, Option.ite_none_right_eq_some, Option.some.injEq, and_comm, Nat.pow_eq]

/-- A shorthand overflows in one of its steps exactly if the sum of its parts is out of range. -/
theorem ofShorthandParts?_eq_some_iff {hours minutes seconds n : Nat} :
    ofShorthandParts? hours minutes seconds = some n ↔
      total hours minutes seconds = n ∧ n < 2 ^ 63 := by
  simp only [ofShorthandParts?, Option.bind_eq_bind, Option.bind_eq_some_iff,
    inRange?_eq_some_iff, total]
  constructor
  · rintro ⟨_, ⟨rfl, _⟩, _, ⟨rfl, _⟩, _, ⟨rfl, _⟩, _, ⟨rfl, _⟩, _, ⟨rfl, _⟩, _, ⟨rfl, _⟩, rfl, bounded⟩
    exact ⟨rfl, bounded⟩
  · rintro ⟨rfl, bounded⟩
    -- Every number on the way is at most the sum.
    exact ⟨hours, ⟨rfl, by omega⟩, _, ⟨rfl, by omega⟩, minutes, ⟨rfl, by omega⟩, _,
      ⟨rfl, by omega⟩, _, ⟨rfl, by omega⟩, seconds, ⟨rfl, by omega⟩, rfl, bounded⟩

theorem ofShorthand?_toChars {n : Nat} (long : 100 ≤ n / 3600) (bounded : n < 2 ^ 63) :
    ofShorthand? (toChars n) = some n := by
  have parts := readParts_toChars long
  cases shape : toChars n with
  | nil => simp [toChars_shorthand long] at shape
  | cons first more =>
      rw [shape] at parts
      simp only [ofShorthand?, parts]
      exact ofShorthandParts?_eq_some_iff.mpr ⟨total_parts n, bounded⟩

/-- A run of at least three digits does not begin a clock. -/
theorem ofClock?_eq_none {a b c : Char} {text : List Char} (digit : c.isDigit = true) :
    ofClock? (a :: b :: c :: text) = none := by
  have notColon : c ≠ ':' := by
    rintro rfl
    contradiction
  unfold ofClock?
  split
  · next shape => simp_all
  · next shape => simp_all
  · rfl

/-- The display text of a span is read back as the span. -/
theorem ofChars?_toChars {n : Nat} (bounded : n < 2 ^ 63) : ofChars? (toChars n) = some n := by
  by_cases short : n / 3600 < 100
  · rw [ofChars?, ofClock?_toChars short, Option.some_or]
  · have long := Nat.le_of_not_lt short
    have noClock : ofClock? (toChars n) = none := by
      obtain ⟨a, b, c, more, digits⟩ := digitsOf_hundreds long
      have digit : c.isDigit = true := by
        apply isDigit_of_mem_digitsOf (n := n / 3600)
        simp [digits]
      rw [toChars_shorthand long, digits]
      exact ofClock?_eq_none digit
    rw [ofChars?, noClock, ofShorthand?_toChars long bounded, Option.none_or]

theorem lt_of_ofClockParts? {hours minutes seconds n : Nat} (short : hours < 100)
    (read : ofClockParts? hours minutes seconds = some n) : n < 2 ^ 63 := by
  rw [ofClockParts?] at read
  split at read
  · cases read
    rw [total]
    omega
  · contradiction

/-- Every span that is read lies within the range of spans. -/
theorem lt_of_ofChars? {text : List Char} {n : Nat} (read : ofChars? text = some n) :
    n < 2 ^ 63 := by
  rcases Option.or_eq_some_iff.mp read with clock | ⟨_, shorthand⟩
  · unfold ofClock? at clock
    split at clock
    · rcases Option.bind_eq_some_iff.mp clock with ⟨hours, readHours, clock⟩
      rcases Option.bind_eq_some_iff.mp clock with ⟨minutes, _, clock⟩
      exact lt_of_ofClockParts? (readDigits?_two_lt readHours) clock
    · rcases Option.bind_eq_some_iff.mp clock with ⟨hours, readHours, clock⟩
      rcases Option.bind_eq_some_iff.mp clock with ⟨minutes, _, clock⟩
      rcases Option.bind_eq_some_iff.mp clock with ⟨seconds, _, clock⟩
      exact lt_of_ofClockParts? (readDigits?_two_lt readHours) clock
    · contradiction
  · unfold ofShorthand? at shorthand
    split at shorthand
    · exact (ofShorthandParts?_eq_some_iff.mp shorthand).2
    · contradiction

end Duration

/-! ## Texts and truth values -/

/-- Quotes around a text are taken off again. -/
theorem stripQuotes_eq {text content : String} {quote : Char} (quoted : isQuote quote = true)
    (shape : text.toList = quote :: (content.toList ++ [quote])) : stripQuotes text = content := by
  have opening : dropLeadingQuote (quote :: (content.toList ++ [quote])) =
      content.toList ++ [quote] := if_pos quoted
  have closing : dropTrailingQuote (content.toList ++ [quote]) = content.toList := by
    simp [dropTrailingQuote, quoted]
  rw [stripQuotes, shape, opening, closing, String.ofList_toList]

theorem stripQuotes_wrapped (content : String) :
    stripQuotes ("\"" ++ content ++ "\"") = content :=
  @stripQuotes_eq _ _ '"' rfl (by simp)

theorem stripQuotes_of_bare {content : String} (bare : hasOuterQuote content = false) :
    stripQuotes content = content := by
  simp only [hasOuterQuote, Bool.or_eq_false_iff] at bare
  have opening : dropLeadingQuote content.toList = content.toList := by
    cases shape : content.toList with
    | nil => rfl
    | cons c rest =>
        rw [shape] at bare
        rw [dropLeadingQuote, if_neg]
        simpa using bare.1
  rw [stripQuotes, opening, dropTrailingQuote, bare.2]
  simp

theorem readBoolean?_display (truth : Bool) :
    readBoolean? (Value.boolean truth).display = some truth := by
  cases truth <;> decide

/-- The display text of a value is read as the value, if it is of neither texts nor numbers. -/
theorem ValueType.cast?_display {type : ValueType} {text : String} {value : Value}
    (read : type.cast? text = some value) (notString : type ≠ .string)
    (notNumber : type ≠ .number) : type.cast? value.display = some value := by
  cases type with
  | string => contradiction
  | number => contradiction
  | boolean =>
      rcases Option.map_eq_some_iff.mp read with ⟨truth, _, rfl⟩
      rw [cast?, readBoolean?_display]
      rfl
  | date =>
      rcases Option.map_eq_some_iff.mp read with ⟨day, _, rfl⟩
      rw [cast?, Value.display, String.toList_ofList, day.ofChars?_toChars]
      rfl
  | dateTime =>
      rcases Option.map_eq_some_iff.mp read with ⟨moment, _, rfl⟩
      rw [cast?, Value.display, String.toList_ofList, moment.ofChars?_toChars]
      rfl
  | time =>
      rcases Option.map_eq_some_iff.mp read with ⟨span, readSpan, rfl⟩
      rcases Option.bind_eq_some_iff.mp readSpan with ⟨seconds, readSeconds, same⟩
      cases same
      rw [cast?, Value.display, String.toList_ofList,
        Duration.ofChars?_toChars (Duration.lt_of_ofChars? readSeconds)]
      rfl

end FilterQuery
