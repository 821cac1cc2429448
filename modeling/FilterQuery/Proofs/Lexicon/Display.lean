import FilterQuery.Proofs.Lexicon.Priority
import FilterQuery.Proofs.Value.ReadBack

/-!
# Display texts in the pattern table

The display text of a value that is neither a text nor a number is matched as a whole, by the
pattern of its type or by a name of the schema, as long as no name begins with a digit.
-/

namespace FilterQuery

/-- No name or label of a schema begins with an ASCII digit. -/
def Schema.NamesAvoidDigits (schema : Schema) : Prop :=
  ∀ field ∈ schema.fields, field.name.toList.head?.any Char.isDigit = false ∧
    field.label.toList.head?.any Char.isDigit = false

namespace Lexicon

open Character

/-! ## First matches -/

theorem firstMatch?_cons_none {pattern : Pattern} {table : List Pattern} {text : List Char}
    (passed : pattern.admitted? text = none) :
    firstMatch? (pattern :: table) text = firstMatch? table text := by
  rw [firstMatch?, List.findSome?_cons, passed]
  rfl

theorem firstMatch?_cons_some {pattern : Pattern} {table : List Pattern} {text : List Char}
    {width : Nat} (admitted : pattern.admitted? text = some width) :
    firstMatch? (pattern :: table) text = some (pattern.kind, width) := by
  rw [firstMatch?, List.findSome?_cons, admitted]
  rfl

theorem admitted?_eq_none {pattern : Pattern} {text : List Char}
    (missed : pattern.width? text = none) : pattern.admitted? text = none := by
  rw [Pattern.admitted?, missed]
  rfl

/-- A match of a whole text that does not begin with a blank is admissible. -/
theorem admitted?_whole {pattern : Pattern} {c : Char} {text : List Char}
    (visible : isBlank c = false) (matched : pattern.width? (c :: text) = some (c :: text).length) :
    pattern.admitted? (c :: text) = some (c :: text).length := by
  rw [Pattern.admitted?, matched, Option.filter_some, if_pos]
  simp [visible]

/-- A match of a whole text that begins with a digit is admissible. -/
theorem admitted?_digit {pattern : Pattern} {c : Char} {text : List Char} (digit : c.isDigit = true)
    (matched : pattern.width? (c :: text) = some (c :: text).length) :
    pattern.admitted? (c :: text) = some (c :: text).length :=
  admitted?_whole (isBlank_of_isDigit digit) matched

/-- At a digit no name is found that does not begin with one. -/
theorem firstMatch?_names_digit {schema : Schema} (avoids : schema.NamesAvoidDigits) {c : Char}
    (text : List Char) (digit : c.isDigit = true) :
    firstMatch? (schema.fields.flatMap fieldPatterns) (c :: text) = none :=
  firstMatch?_names_mark avoids text digit (ascii_of_isDigit digit).1 (ascii_of_isDigit digit).2

/-- In a run of letters a name is found that is the whole run, or none. -/
theorem firstMatch?_names_word (schema : Schema) {text : List Char}
    (letters : ∀ c ∈ text, (fold c).isLower = true) :
    firstMatch? (schema.fields.flatMap fieldPatterns) text = none ∨
      firstMatch? (schema.fields.flatMap fieldPatterns) text = some (.field, text.length) := by
  cases found : firstMatch? (schema.fields.flatMap fieldPatterns) text with
  | none => exact Or.inl rfl
  | some first =>
      apply Or.inr
      obtain ⟨kind, width⟩ := first
      obtain ⟨pattern, member, rfl, admitted⟩ := exists_pattern_of_firstMatch? found
      obtain ⟨naming, rfl⟩ := exists_naming member
      rw [admitted?_namePattern_word letters admitted]
      rfl

/-- A literal is found as a whole, or a name is, where no keyword is found. -/
theorem findExact?_of_literal {schema : Schema} {text : String} {kind : TokenKind}
    (noKeyword : firstMatch? keywordPatterns text.toList = none)
    (names : firstMatch? (schema.fields.flatMap fieldPatterns) text.toList = none ∨
      firstMatch? (schema.fields.flatMap fieldPatterns) text.toList =
        some (.field, text.toList.length))
    (literal : firstMatch? literalPatterns text.toList = some (kind, text.toList.length))
    (suggests : kind.suggestsOperand = true) :
    ∃ found, schema.findExact? text = some found ∧ found.suggestsOperand = true := by
  rcases names with none_named | named
  · refine ⟨kind, Schema.findExact?_eq_some_iff.mpr ?_, suggests⟩
    rw [match?_eq_or, noKeyword, none_named, literal, Option.none_or, Option.none_or]
  · refine ⟨.field, Schema.findExact?_eq_some_iff.mpr ?_, rfl⟩
    rw [match?_eq_or, noKeyword, named, Option.none_or, Option.some_or]

/-! ## Shapes -/

theorem quotedWidth?_digit {c : Char} (text : List Char) (digit : c.isDigit = true) :
    quotedWidth? (c :: text) = none := by
  rw [quotedWidth?, if_neg]
  simp [isQuote_of_isDigit digit]

/-- Every mark of a layout stands in the texts that it matches. -/
theorem mem_of_startsWithLayout {layout text : List Char} {mark : Char}
    (starts : startsWithLayout layout text = true) (inLayout : mark ∈ layout)
    (fixed : mark ≠ '0') : mark ∈ text := by
  induction layout generalizing text with
  | nil => contradiction
  | cons first layout ih =>
      cases text with
      | nil => contradiction
      | cons c text =>
          rw [startsWithLayout, Bool.and_eq_true] at starts
          rcases List.mem_cons.mp inLayout with rfl | inLayout
          · have same : c = mark := by simpa [fixed] using starts.1
            rw [same]
            exact List.mem_cons_self
          · exact List.mem_cons_of_mem c (ih starts.2 inLayout)

/-- A text without some mark of a layout does not have the layout. -/
theorem layoutWidth?_eq_none {layout ending : String} {text : List Char} (mark : Char)
    (inLayout : mark ∈ layout.toList) (fixed : mark ≠ '0') (absent : mark ∉ text) :
    layoutWidth? layout ending text = none := by
  have other (whole : String) (inWhole : mark ∈ whole.toList) :
      startsWithLayout whole.toList text = false := by
    rw [Bool.eq_false_iff]
    intro starts
    exact absent (mem_of_startsWithLayout starts inWhole fixed)
  have longer : mark ∈ (layout ++ ending).toList := by
    rw [String.toList_append]
    exact List.mem_append_left _ inLayout
  rw [layoutWidth?, List.filterMap_cons_none, List.filterMap_cons_none]
  · rfl
  · rw [other layout inLayout]
    rfl
  · rw [other (layout ++ ending) longer]
    rfl

/-- A text that has a layout as a whole is matched as a whole. -/
theorem layoutWidth?_whole {layout ending : String} {text : List Char} {last : Char}
    (starts : startsWithLayout (layout ++ ending).toList text = true)
    (length_eq : (layout ++ ending).toList.length = text.length)
    (ends : text.getLast? = some last) (digit : last.isDigit = true) :
    layoutWidth? layout ending text = some text.length := by
  have boundary := isBoundary_length ends (isDigit_of_ascii digit).2
  rw [layoutWidth?, firstBoundary?, List.filterMap_cons_some (b := text.length),
    List.find?_cons_of_pos boundary]
  rw [if_pos starts, length_eq]

/-! ## Literals -/

theorem not_mem_of_digits {text : List Char} {mark : Char} (digits : ∀ c ∈ text, c.isDigit = true)
    (other : mark.isDigit = false) : mark ∉ text := by
  intro member
  rw [digits mark member] at other
  contradiction

theorem firstMatch?_literal_date (date : Date) :
    firstMatch? literalPatterns date.toChars = some (.value .date, date.toChars.length) := by
  rcases date.toChars_eq with ⟨y₁, y₂, y₃, y₄, m₁, m₂, d₁, d₂, shape, _, _, _, digits⟩
  have noColon : ':' ∉ date.toChars := by
    have absent := not_mem_of_digits digits (show ':'.isDigit = false from rfl)
    rw [shape]
    simpa using absent
  simp only [List.forall_mem_cons] at digits
  rcases digits with ⟨y₁_digit, y₂_digit, y₃_digit, y₄_digit, m₁_digit, m₂_digit, d₁_digit,
    d₂_digit, _⟩
  have starts : startsWithLayout ("0000-00-00" ++ "").toList date.toChars = true := by
    simp [startsWithLayout, isDigit_of_ascii, *]
  have whole := layoutWidth?_whole starts (by rw [shape]; rfl) (by rw [shape]; rfl) d₂_digit
  have noMoment : layoutWidth? "0000-00-00 00:00" ":00" date.toChars = none :=
    layoutWidth?_eq_none ':' (by decide) (by decide) noColon
  rw [shape] at whole noMoment ⊢
  rw [literalPatterns, firstMatch?_cons_none (admitted?_eq_none (quotedWidth?_digit _ y₁_digit)),
    firstMatch?_cons_none (admitted?_eq_none noMoment),
    firstMatch?_cons_some (admitted?_digit y₁_digit whole)]

theorem firstMatch?_literal_dateTime (moment : DateTime) :
    firstMatch? literalPatterns moment.toChars =
      some (.value .dateTime, moment.toChars.length) := by
  rcases moment.date.toChars_eq with ⟨y₁, y₂, y₃, y₄, m₁, m₂, d₁, d₂, date, _, _, _, dateDigits⟩
  rcases moment.toChars_eq with ⟨h₁, h₂, i₁, i₂, s₁, s₂, shape, _, _, _, timeDigits⟩
  rw [date] at shape
  simp only [List.forall_mem_cons] at dateDigits timeDigits
  rcases dateDigits with ⟨y₁_digit, y₂_digit, y₃_digit, y₄_digit, m₁_digit, m₂_digit, d₁_digit,
    d₂_digit, _⟩
  rcases timeDigits with ⟨h₁_digit, h₂_digit, i₁_digit, i₂_digit, s₁_digit, s₂_digit, _⟩
  have starts : startsWithLayout ("0000-00-00 00:00" ++ ":00").toList moment.toChars = true := by
    simp [startsWithLayout, isDigit_of_ascii, *]
  have whole := layoutWidth?_whole starts (by rw [shape]; rfl) (by rw [shape]; rfl) s₂_digit
  rw [shape] at whole ⊢
  rw [literalPatterns, List.cons_append,
    firstMatch?_cons_none (admitted?_eq_none (quotedWidth?_digit _ y₁_digit)),
    firstMatch?_cons_some (admitted?_digit y₁_digit whole)]

theorem firstMatch?_literal_clock {n : Nat} (short : n / 3600 < 100) :
    firstMatch? literalPatterns (Duration.toChars n) =
      some (.value .time, (Duration.toChars n).length) := by
  obtain ⟨h₁, h₂, m₁, m₂, s₁, s₂, shape, _, _, _, digits⟩ := Duration.toChars_clock_eq short
  have noDash : '-' ∉ Duration.toChars n := by
    have absent := not_mem_of_digits digits (show '-'.isDigit = false from rfl)
    rw [shape]
    simpa using absent
  simp only [List.forall_mem_cons] at digits
  rcases digits with ⟨h₁_digit, h₂_digit, m₁_digit, m₂_digit, s₁_digit, s₂_digit, _⟩
  have starts : startsWithLayout ("00:00" ++ ":00").toList (Duration.toChars n) = true := by
    simp [startsWithLayout, isDigit_of_ascii, *]
  have whole := layoutWidth?_whole starts (by rw [shape]; rfl) (by rw [shape]; rfl) s₂_digit
  have noMoment : layoutWidth? "0000-00-00 00:00" ":00" (Duration.toChars n) = none :=
    layoutWidth?_eq_none '-' (by decide) (by decide) noDash
  have noDate : layoutWidth? "0000-00-00" "" (Duration.toChars n) = none :=
    layoutWidth?_eq_none '-' (by decide) (by decide) noDash
  rw [shape] at whole noMoment noDate ⊢
  rw [literalPatterns, firstMatch?_cons_none (admitted?_eq_none (quotedWidth?_digit _ h₁_digit)),
    firstMatch?_cons_none (admitted?_eq_none noMoment),
    firstMatch?_cons_none (admitted?_eq_none noDate),
    firstMatch?_cons_some (admitted?_digit h₁_digit whole)]

/-- Digits in front of a unit letter are found as one part. -/
theorem unitWidthBehind?_digitsOf (lead : List Char) {unit : Char} (n : Nat) (rest : List Char)
    (letter : isDigit unit = false) :
    unitWidthBehind? unit lead.length (lead ++ (digitsOf n ++ unit :: rest)) =
      some (lead.length + (digitsOf n).length + 1) := by
  have digits : ∀ c ∈ digitsOf n, isDigit c = true := fun c member =>
    (isDigit_of_ascii (isDigit_of_mem_digitsOf member)).1
  have run : (digitsOf n ++ unit :: rest).takeWhile isDigit = digitsOf n := by
    rw [List.takeWhile_append_of_pos digits, List.takeWhile_cons_of_neg (by simp [letter]),
      List.append_nil]
  have nonempty : (digitsOf n).length ≠ 0 := by
    simp [digitsOf, Nat.toDigits_ne_nil]
  have behind : (lead ++ (digitsOf n ++ unit :: rest)).drop (lead.length + (digitsOf n).length) =
      unit :: rest := by
    rw [← List.drop_drop, List.drop_left, List.drop_left]
  rw [unitWidthBehind?]
  simp only [List.drop_left, run, behind]
  simp [sameLetter, nonempty]

/-- A part ends behind its unit letter, or it is left out. -/
theorem unitEnds_digitsOf (front : List Char) {unit : Char} (n : Nat) (rest : List Char)
    (letter : isDigit unit = false) :
    unitEnds false unit (front ++ (digitsOf n ++ unit :: rest)) front.length =
      [front.length + ((digitsOf n).length + 1), front.length] := by
  have found := unitWidthBehind?_digitsOf [] n rest letter
  rw [List.nil_append, List.length_nil, Nat.zero_add] at found
  have width : unitWidth? false unit (digitsOf n ++ unit :: rest) =
      some ((digitsOf n).length + 1) := by
    rw [unitWidth?_eq]
    exact found
  rw [unitEnds, List.drop_left, width]
  rfl

/-- A part behind a space ends behind its unit letter, or it is left out with the space. -/
theorem unitEnds_spaced (front : List Char) {unit : Char} (n : Nat) (rest : List Char)
    (letter : isDigit unit = false) :
    unitEnds true unit (front ++ ' ' :: (digitsOf n ++ unit :: rest)) front.length =
      [front.length + (1 + (digitsOf n).length + 1), front.length] := by
  have found := unitWidthBehind?_digitsOf [' '] n rest letter
  have width : unitWidth? true unit (' ' :: (digitsOf n ++ unit :: rest)) =
      some (1 + (digitsOf n).length + 1) := by
    rw [unitWidth?_eq]
    exact found
  rw [unitEnds, List.drop_left, width]
  rfl

/-- The first of the readings is made up of the first of the ends. -/
theorem flatMap_cons_of_head {α β : Type} {ends : α → List β} {first : α} {others : List α}
    {head : β} {more : List β} (found : ends first = head :: more) :
    ∃ tail, (first :: others).flatMap ends = head :: tail := by
  rw [List.flatMap_cons, found]
  exact ⟨_, rfl⟩

/-- The longest reading of a shorthand is all of it. -/
theorem shorthandReadings_toChars {n : Nat} (long : 100 ≤ n / 3600) :
    ∃ others, shorthandReadings (Duration.toChars n) =
      (Duration.toChars n).length :: others := by
  rw [Duration.toChars_shorthand long]
  generalize digits₁ : digitsOf (n / 3600) = hours
  generalize digits₂ : digitsOf (n % 3600 / 60) = minutes
  generalize digits₃ : digitsOf (n % 60) = seconds
  have hoursEnd := unitEnds_digitsOf [] (n / 3600) (' ' :: (minutes ++ 'm' :: ' ' ::
    (seconds ++ ['s']))) (show isDigit 'h' = false by decide)
  have minutesEnd := unitEnds_spaced (hours ++ ['h']) (n % 3600 / 60)
    (' ' :: (seconds ++ ['s'])) (show isDigit 'm' = false by decide)
  have secondsEnd := unitEnds_spaced (hours ++ ['h'] ++ ' ' :: minutes ++ ['m'])
    (n % 60) [] (show isDigit 's' = false by decide)
  rw [digits₁] at hoursEnd
  rw [digits₂] at minutesEnd
  rw [digits₃] at secondsEnd
  simp only [List.append_assoc, List.cons_append, List.nil_append, List.length_append,
    List.length_cons, List.length_nil, Nat.zero_add] at hoursEnd minutesEnd secondsEnd ⊢
  have start_eq : hours.length + 1 + (1 + minutes.length + 1) =
      hours.length + (minutes.length + 1 + 1 + 1) := by omega
  have total_eq : hours.length + (minutes.length + 1 + 1 + 1) + (1 + seconds.length + 1) =
      hours.length + (minutes.length + (seconds.length + 1 + 1 + 1) + 1 + 1) := by omega
  rw [start_eq] at minutesEnd
  rw [total_eq] at secondsEnd
  obtain ⟨behindMinutes, fromMinutes⟩ := flatMap_cons_of_head secondsEnd
  rw [← minutesEnd] at fromMinutes
  rw [shorthandReadings, hoursEnd]
  exact flatMap_cons_of_head fromMinutes

theorem firstMatch?_literal_shorthand {n : Nat} (long : 100 ≤ n / 3600) :
    firstMatch? literalPatterns (Duration.toChars n) =
      some (.value .time, (Duration.toChars n).length) := by
  obtain ⟨others, readings⟩ := shorthandReadings_toChars long
  have shape := Duration.toChars_shorthand long
  have ends : (Duration.toChars n).getLast? = some 's' := by
    rw [shape]
    simp [List.getLast?_cons]
  have whole : shorthandWidth? (Duration.toChars n) = some (Duration.toChars n).length := by
    change firstBoundary? _ (shorthandReadings (Duration.toChars n)) = _
    rw [firstBoundary?, readings,
      List.find?_cons_of_pos (isBoundary_length ends (by decide))]
  have absent {mark : Char} (other : mark.isDigit = false) (letters : mark ∉ "hms ".toList) :
      mark ∉ Duration.toChars n := by
    have inHours := not_mem_of_digits (fun _ => isDigit_of_mem_digitsOf (n := n / 3600)) other
    have inMinutes :=
      not_mem_of_digits (fun _ => isDigit_of_mem_digitsOf (n := n % 3600 / 60)) other
    have inSeconds := not_mem_of_digits (fun _ => isDigit_of_mem_digitsOf (n := n % 60)) other
    rw [shape]
    simp_all
  have noMoment : layoutWidth? "0000-00-00 00:00" ":00" (Duration.toChars n) = none :=
    layoutWidth?_eq_none '-' (by decide) (by decide) (absent (by decide) (by decide))
  have noDate : layoutWidth? "0000-00-00" "" (Duration.toChars n) = none :=
    layoutWidth?_eq_none '-' (by decide) (by decide) (absent (by decide) (by decide))
  have noClock : layoutWidth? "00:00" ":00" (Duration.toChars n) = none :=
    layoutWidth?_eq_none ':' (by decide) (by decide) (absent (by decide) (by decide))
  obtain ⟨a, b, c, more, digits⟩ := digitsOf_hundreds long
  have digit : a.isDigit = true := by
    apply isDigit_of_mem_digitsOf (n := n / 3600)
    simp [digits]
  rw [digits, List.cons_append] at shape
  rw [shape] at whole noMoment noDate noClock ⊢
  rw [literalPatterns, firstMatch?_cons_none (admitted?_eq_none (quotedWidth?_digit _ digit)),
    firstMatch?_cons_none (admitted?_eq_none noMoment),
    firstMatch?_cons_none (admitted?_eq_none noDate),
    firstMatch?_cons_none (admitted?_eq_none noClock),
    firstMatch?_cons_some (admitted?_digit digit whole)]

theorem firstMatch?_literal_time (n : Nat) :
    firstMatch? literalPatterns (Duration.toChars n) =
      some (.value .time, (Duration.toChars n).length) := by
  by_cases short : n / 3600 < 100
  · exact firstMatch?_literal_clock short
  · exact firstMatch?_literal_shorthand (Nat.le_of_not_lt short)

theorem firstMatch?_literal_boolean (truth : Bool) :
    firstMatch? literalPatterns (Value.boolean truth).display.toList =
      some (.value .boolean, (Value.boolean truth).display.toList.length) := by
  cases truth <;> decide

/-! ## Display texts -/

/-- A text that begins with a digit and does not end in a quote. -/
structure BeginsWithDigit (text : List Char) : Prop where
  first : ∃ c rest, text = c :: rest ∧ c.isDigit = true
  last : text.getLast?.any isQuote = false

theorem beginsWithDigit_date (date : Date) : BeginsWithDigit date.toChars := by
  rcases date.toChars_eq with ⟨y₁, y₂, y₃, y₄, m₁, m₂, d₁, d₂, shape, _, _, _, digits⟩
  constructor
  · exact ⟨y₁, _, shape, digits y₁ (by simp)⟩
  · simp [shape, isQuote_of_isDigit (digits d₂ (by simp))]

theorem beginsWithDigit_dateTime (moment : DateTime) : BeginsWithDigit moment.toChars := by
  obtain ⟨⟨c, rest, date, digit⟩, _⟩ := beginsWithDigit_date moment.date
  rcases moment.toChars_eq with ⟨h₁, h₂, m₁, m₂, s₁, s₂, shape, _, _, _, digits⟩
  constructor
  · exact ⟨c, _, by rw [shape, date, List.cons_append], digit⟩
  · simp [shape, isQuote_of_isDigit (digits s₂ (by simp))]

theorem beginsWithDigit_time (n : Nat) : BeginsWithDigit (Duration.toChars n) := by
  by_cases short : n / 3600 < 100
  · obtain ⟨h₁, h₂, m₁, m₂, s₁, s₂, shape, _, _, _, digits⟩ := Duration.toChars_clock_eq short
    constructor
    · exact ⟨h₁, _, shape, digits h₁ (by simp)⟩
    · simp [shape, isQuote_of_isDigit (digits s₂ (by simp))]
  · have shape := Duration.toChars_shorthand (Nat.le_of_not_lt short)
    obtain ⟨a, b, c, more, digits⟩ := digitsOf_hundreds (Nat.le_of_not_lt short)
    have digit : a.isDigit = true := by
      apply isDigit_of_mem_digitsOf (n := n / 3600)
      simp [digits]
    constructor
    · exact ⟨a, _, by rw [shape, digits, List.cons_append], digit⟩
    · rw [shape]
      simp [List.getLast?_cons, isQuote]

/-- A text without quotes at its ends that is found as a whole and may stand for an operand. -/
structure FoundBare (schema : Schema) (text : String) : Prop where
  found : ∃ kind, schema.findExact? text = some kind ∧ kind.suggestsOperand = true
  bare : hasOuterQuote text = false

/-- A literal that begins with a digit is found as a whole. -/
theorem foundBare_digit {schema : Schema} (avoids : schema.NamesAvoidDigits) {text : List Char}
    {kind : TokenKind} (begins : BeginsWithDigit text)
    (literal : firstMatch? literalPatterns text = some (kind, text.length))
    (suggests : kind.suggestsOperand = true) : FoundBare schema (String.ofList text) := by
  rcases begins with ⟨⟨c, rest, rfl, digit⟩, last⟩
  constructor
  · refine findExact?_of_literal ?_ ?_ ?_ suggests
    · rw [String.toList_ofList]
      exact firstMatch?_keywordPatterns_eq_none rest (mayStart_of_isDigit digit)
    · rw [String.toList_ofList]
      exact Or.inl (firstMatch?_names_digit avoids rest digit)
    · rw [String.toList_ofList]
      exact literal
  · rw [hasOuterQuote, String.toList_ofList, last, Bool.or_false]
    exact isQuote_of_isDigit digit

/-- The word of a truth value begins with a letter that no keyword begins with. -/
theorem exists_of_boolean (truth : Bool) :
    ∃ first text, (Value.boolean truth).display.toList = first :: text ∧
      isBlank first = false ∧ sameLetter first 'o' = false ∧
      (∀ keyword ∈ keywords, keyword.mayStart first = false) ∧
      (first :: text).all (fun c => (fold c).isLower) = true := by
  cases truth with
  | true => exact ⟨'t', ['r', 'u', 'e'], by decide⟩
  | false => exact ⟨'f', ['a', 'l', 's', 'e'], by decide⟩

theorem foundBare_boolean (schema : Schema) (truth : Bool) :
    FoundBare schema (Value.boolean truth).display := by
  obtain ⟨first, text, shape, _, _, noKeyword, letters⟩ := exists_of_boolean truth
  constructor
  · apply findExact?_of_literal _ _ (firstMatch?_literal_boolean truth) rfl
    · rw [shape]
      exact firstMatch?_keywordPatterns_eq_none text noKeyword
    · rw [shape]
      exact firstMatch?_names_word schema (List.all_eq_true.mp letters)
  · cases truth <;> decide

/-- The display text of a value that is neither a text nor a number is found as a whole. -/
theorem foundBare_display {schema : Schema} (avoids : schema.NamesAvoidDigits) {type : ValueType}
    {text : String} {value : Value} (read : type.cast? text = some value)
    (notString : type ≠ .string) (notNumber : type ≠ .number) :
    FoundBare schema value.display := by
  cases type with
  | string => contradiction
  | number => contradiction
  | boolean =>
      rcases Option.map_eq_some_iff.mp read with ⟨truth, _, rfl⟩
      exact foundBare_boolean schema truth
  | date =>
      rcases Option.map_eq_some_iff.mp read with ⟨day, _, rfl⟩
      exact foundBare_digit avoids (beginsWithDigit_date day) (firstMatch?_literal_date day) rfl
  | dateTime =>
      rcases Option.map_eq_some_iff.mp read with ⟨moment, _, rfl⟩
      exact foundBare_digit avoids (beginsWithDigit_dateTime moment)
        (firstMatch?_literal_dateTime moment) rfl
  | time =>
      rcases Option.map_eq_some_iff.mp read with ⟨span, readSpan, rfl⟩
      rcases Option.bind_eq_some_iff.mp readSpan with ⟨seconds, _, same⟩
      cases same
      exact foundBare_digit avoids (beginsWithDigit_time seconds)
        (firstMatch?_literal_time seconds) rfl

end Lexicon

end FilterQuery
