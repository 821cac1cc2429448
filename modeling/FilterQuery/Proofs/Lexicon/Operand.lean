import Mathlib.Data.List.TakeWhile
import FilterQuery.Expression.Basic
import FilterQuery.Proofs.Binary64.Text
import FilterQuery.Proofs.Lexicon.Display
import FilterQuery.Proofs.Lexicon.Fence

/-!
# Operands in front of a fence

An operand of a text query is written as a literal or between quotes.  In front of a fence it is
found as a whole, whatever comes behind, as long as it can be quoted and no name of the schema begins
like a literal.  A name that only begins with a letter of a truth value does no harm: it would have
to end within the word.
-/

namespace FilterQuery

open Character Lexicon

namespace Lexicon

/-- Whether a literal other than a truth value may begin with a character. -/
def beginsLiteral (c : Char) : Bool :=
  c.isDigit || c == '-' || isQuote c

/-- Whether a number may be written with a character in front. -/
def beginsNumber (c : Char) : Bool :=
  c.isDigit || c == '-'

theorem beginsLiteral_of_beginsNumber {c : Char} (begins : beginsNumber c = true) :
    beginsLiteral c = true :=
  Bool.or_eq_true_iff.mpr (Or.inl begins)

/-- A name avoids operands when it begins neither like a literal nor with the word of a truth value,
in any letter case. -/
structure AvoidsOperands (name : String) : Prop where
  literal : name.toList.head?.any beginsLiteral = false
  boolean : ∀ truth : Bool,
    dropLetters? (Value.boolean truth).display.toList name.toList = none

instance (name : String) : Decidable (AvoidsOperands name) :=
  decidable_of_iff (name.toList.head?.any beginsLiteral = false ∧
      ∀ truth : Bool, dropLetters? (Value.boolean truth).display.toList name.toList = none)
    ⟨fun ⟨literal, boolean⟩ => ⟨literal, boolean⟩,
      fun avoids => ⟨avoids.literal, avoids.boolean⟩⟩

end Lexicon

/-- No name and no label of a schema begins like an operand. -/
def Schema.NamesAvoidOperands (schema : Schema) : Prop :=
  ∀ field ∈ schema.fields, AvoidsOperands field.name ∧ AvoidsOperands field.label

/-- Whether the text grammar has a literal for a value: a text holds one kind of quotes at most, and
a number is finite. -/
def Value.isPlain : Value → Bool
  | text content => !(content.toList.contains '"' && content.toList.contains '\'')
  | number (.finite _ _) => true
  | number _ => false
  | _ => true

/-- A text is found as an operand in front of every fence. -/
structure Schema.FindsOperand (schema : Schema) (text : List Char) : Prop where
  /-- The first character is not blank and does not go on with an operator. -/
  begins : ∃ first rest, text = first :: rest ∧ isBlank first = false ∧
    sameLetter first 'o' = false
  found : ∀ rest, Fence rest → ∃ kind, schema.match? (text ++ rest) = some (kind, text.length) ∧
    kind.suggestsOperand = true

namespace Lexicon

/-! ## The first character -/

theorem toNat_lt_of_beginsLiteral {c : Char} (begins : beginsLiteral c = true) :
    c.toNat < 0x80 := by
  simp only [beginsLiteral, isQuote, Bool.or_eq_true, beq_iff_eq] at begins
  rcases begins with (digit | rfl) | rfl | rfl
  · exact (ascii_of_isDigit digit).1
  · decide
  · decide
  · decide

/-- A literal begins with what is neither blank nor a letter, and with no keyword. -/
theorem facts_of_beginsLiteral {c : Char} (begins : beginsLiteral c = true) :
    c.isAlpha = false ∧ isBlank c = false ∧ sameLetter c 'o' = false ∧
      ∀ keyword ∈ keywords, keyword.mayStart c = false :=
  of_ascii (fun c => beginsLiteral c = true → c.isAlpha = false ∧ isBlank c = false ∧
    sameLetter c 'o' = false ∧ ∀ keyword ∈ keywords, keyword.mayStart c = false)
    (toNat_lt_of_beginsLiteral begins) (by decide +kernel) begins

/-- Where a literal begins no name is found. -/
theorem firstMatch?_names_beginsLiteral {schema : Schema} (avoids : schema.NamesAvoidOperands)
    {c : Char} (text : List Char) (begins : beginsLiteral c = true) :
    firstMatch? (schema.fields.flatMap fieldPatterns) (c :: text) = none := by
  apply firstMatch?_names_mark _ text begins (toNat_lt_of_beginsLiteral begins)
    (facts_of_beginsLiteral begins).1
  intro field inSchema
  exact ⟨(avoids field inSchema).1.literal, (avoids field inSchema).2.literal⟩

/-- A literal is found in front of every fence, if no name of the schema is. -/
theorem findsOperand_of_literal {schema : Schema} {first : Char} {text : List Char}
    {kind : TokenKind} (visible : isBlank first = false) (notO : sameLetter first 'o' = false)
    (noKeyword : ∀ keyword ∈ keywords, keyword.mayStart first = false)
    (noName : ∀ rest, BreaksWord rest →
      firstMatch? (schema.fields.flatMap fieldPatterns) (first :: text ++ rest) = none)
    (literal : firstMatch? literalPatterns (first :: text) = some (kind, (first :: text).length))
    (suggests : kind.suggestsOperand = true) : schema.FindsOperand (first :: text) where
  begins := ⟨first, text, rfl, visible, notO⟩
  found rest fence := by
    refine ⟨kind, ?_, suggests⟩
    rw [match?_eq_or, noName rest fence.breaksWord, firstMatch?_literal_append fence literal,
      List.cons_append, firstMatch?_keywordPatterns_eq_none _ noKeyword]
    rfl

theorem findsOperand_of_beginsLiteral {schema : Schema} (avoids : schema.NamesAvoidOperands)
    {first : Char} {text : List Char} {kind : TokenKind} (begins : beginsLiteral first = true)
    (literal : firstMatch? literalPatterns (first :: text) = some (kind, (first :: text).length))
    (suggests : kind.suggestsOperand = true) : schema.FindsOperand (first :: text) := by
  obtain ⟨_, visible, notO, noKeyword⟩ := facts_of_beginsLiteral begins
  exact findsOperand_of_literal visible notO noKeyword
    (fun rest _ => firstMatch?_names_beginsLiteral avoids (text ++ rest) begins) literal suggests

/-- A literal that begins with a digit is found in front of every fence. -/
theorem BeginsWithDigit.findsOperand {schema : Schema} (avoids : schema.NamesAvoidOperands)
    {text : List Char} {kind : TokenKind} (begins : BeginsWithDigit text)
    (literal : firstMatch? literalPatterns text = some (kind, text.length))
    (suggests : kind.suggestsOperand = true) : schema.FindsOperand text := by
  rcases begins.first with ⟨first, rest, rfl, digit⟩
  exact findsOperand_of_beginsLiteral avoids (by simp [beginsLiteral, digit]) literal suggests

/-! ## Numbers -/

theorem unitWidth?_eq_none {mayBeSpaced : Bool} {unit : Char} {text : List Char}
    (absent : ∀ c ∈ text, sameLetter c unit = false) : unitWidth? mayBeSpaced unit text = none := by
  rw [unitWidth?_eq, unitWidthBehind?]
  apply if_neg
  intro found
  rw [Bool.and_eq_true] at found
  rcases (Option.any_eq_true _ _).mp found.2 with ⟨c, first, same⟩
  rw [absent c (List.mem_of_mem_drop (List.mem_of_mem_head? first))] at same
  contradiction

/-- Whether a character is none of the unit letters of a shorthand. -/
def isNoUnit (c : Char) : Bool :=
  !sameLetter c 'h' && !sameLetter c 'm' && !sameLetter c 's'

/-- A text without unit letters is no shorthand. -/
theorem shorthandReadings_eq {text : List Char} (absent : ∀ c ∈ text, isNoUnit c = true) :
    shorthandReadings text = [0] := by
  have ends (mayBeSpaced : Bool) {unit : Char} (other : ∀ c ∈ text, sameLetter c unit = false) :
      unitEnds mayBeSpaced unit text 0 = [0] := by
    rw [unitEnds, List.drop_zero, unitWidth?_eq_none other]
    rfl
  simp only [isNoUnit, Bool.and_eq_true, Bool.not_eq_true'] at absent
  rw [shorthandReadings, ends false fun c member => (absent c member).1.1, List.flatMap_singleton,
    ends true fun c member => (absent c member).1.2, List.flatMap_singleton,
    ends true fun c member => (absent c member).2]

/-- A shape without a reading but the empty one is not admitted. -/
theorem admitted?_shorthand_eq_none {kind : TokenKind} {text : List Char}
    (readings : shorthandReadings text = [0]) :
    (Pattern.mk kind shorthandWidth?).admitted? text = none := by
  rw [Pattern.admitted?, Option.filter_eq_none_iff]
  intro width matched
  have reading : width ∈ shorthandReadings text := List.mem_of_find?_eq_some matched
  rw [readings, List.mem_singleton] at reading
  simp [reading]

theorem numberWidth?_whole {text : List Char} {others : List Nat} {last : Char}
    (readings : numberReadings text = text.length :: others) (ends : text.getLast? = some last)
    (digit : last.isDigit = true) : numberWidth? text = some text.length := by
  have boundary := isBoundary_length ends (isDigit_of_ascii digit).2
  rw [numberWidth?_eq, firstBoundary?, readings, List.find?_cons_of_pos boundary]

theorem exists_last_of_digits {digits : List Char} (nonempty : digits ≠ [])
    (each : ∀ c ∈ digits, c.isDigit = true) :
    ∃ last, digits.getLast? = some last ∧ last.isDigit = true :=
  ⟨_, List.getLast?_eq_some_getLast nonempty, each _ (List.getLast_mem nonempty)⟩

/-- A sign is as wide as it is written. -/
theorem signWidth_signText {negative : Bool} {text : List Char}
    (unsigned : ∀ c ∈ text.head?, c ≠ '-' ∧ c ≠ '+') :
    signWidth (Binary64.signText negative ++ text) = (Binary64.signText negative).length := by
  cases negative with
  | true => rfl
  | false =>
      cases text with
      | nil => rfl
      | cons first rest =>
          obtain ⟨notMinus, notPlus⟩ := unsigned first rfl
          simp [Binary64.signText, signWidth, notMinus, notPlus]

/-- The digits behind a sign are read to their end, and then those behind a point. -/
theorem numberReadings_signText (negative : Bool) {whole : List Char} (tail : List Char)
    (nonempty : whole ≠ []) (each : ∀ c ∈ whole, c.isDigit = true)
    (ends : tail.takeWhile isDigit = []) :
    numberReadings (Binary64.signText negative ++ (whole ++ tail)) =
      (if fractionWidth tail = 0 then []
        else [(Binary64.signText negative).length + whole.length + 1 + fractionWidth tail]) ++
        [(Binary64.signText negative).length + whole.length] := by
  have sign := @signWidth_signText negative _ (@Binary64.unsigned_of_digits _ tail nonempty each)
  have digits : (whole ++ tail).takeWhile isDigit = whole := by
    rw [List.takeWhile_append_of_pos fun c member => (isDigit_of_ascii (each c member)).1, ends,
      List.append_nil]
  rw [numberReadings]
  simp only [sign, List.drop_left, digits, ← List.drop_drop]
  rw [if_neg (List.length_pos_iff.mpr nonempty).ne']

/-- A positional text behind a sign is read as a number to its end. -/
theorem numberWidth?_positional (negative : Bool) {text : List Char}
    (positional : Binary64.Positional text) :
    numberWidth? (Binary64.signText negative ++ text) =
      some (Binary64.signText negative ++ text).length := by
  cases positional with
  | whole nonempty each =>
      obtain ⟨last, ends, digit⟩ := exists_last_of_digits nonempty each
      have readings := numberReadings_signText negative [] nonempty each rfl
      rw [List.append_nil, ← List.length_append] at readings
      apply numberWidth?_whole readings _ digit
      rw [List.getLast?_append, ends, Option.some_or]
  | @fraction whole fraction wholeNonempty fractionNonempty each =>
      rcases List.forall_mem_append.mp each with ⟨wholeDigits, fractionDigits⟩
      obtain ⟨last, ends, digit⟩ := exists_last_of_digits fractionNonempty fractionDigits
      have point : isDigit '.' = false := by decide
      have width : fractionWidth ('.' :: fraction) = fraction.length := by
        rw [fractionWidth, List.takeWhile_eq_self_iff.mpr fun c member =>
          (isDigit_of_ascii (fractionDigits c member)).1]
      have readings := numberReadings_signText negative ('.' :: fraction) wholeNonempty wholeDigits
        (List.takeWhile_cons_of_neg (by simp [point]))
      have total : (Binary64.signText negative).length + whole.length + 1 + fraction.length =
          (Binary64.signText negative ++ (whole ++ '.' :: fraction)).length := by
        simp only [List.length_append, List.length_cons]
        omega
      rw [width, if_neg (List.length_pos_iff.mpr fractionNonempty).ne', total] at readings
      apply numberWidth?_whole readings _ digit
      simp [List.getLast?_append, List.getLast?_cons, ends]

/-- A positional text begins with a digit and holds only digits and a point. -/
theorem chars_of_positional {text : List Char} (positional : Binary64.Positional text) :
    (∃ first rest, text = first :: rest ∧ first.isDigit = true) ∧
      ∀ c ∈ text, c.isDigit = true ∨ c = '.' := by
  cases positional with
  | whole nonempty each =>
      obtain ⟨first, rest, rfl⟩ := List.exists_cons_of_ne_nil nonempty
      exact ⟨⟨first, rest, rfl, each first List.mem_cons_self⟩,
        fun c member => Or.inl (each c member)⟩
  | fraction wholeNonempty _ each =>
      obtain ⟨first, rest, rfl⟩ := List.exists_cons_of_ne_nil wholeNonempty
      refine ⟨⟨first, _, rfl, each first (by simp)⟩, ?_⟩
      intro c member
      by_cases point : c = '.'
      · exact Or.inr point
      · exact Or.inl (each c (by simpa [point] using member))

/-- Neither a digit nor a sign nor a point is a unit letter. -/
theorem isNoUnit_of_numeric {c : Char} (numeric : c.isDigit = true ∨ c = '-' ∨ c = '.') :
    isNoUnit c = true := by
  rcases numeric with digit | rfl | rfl
  · exact of_isDigit (fun c => isNoUnit c = true) (by decide) digit
  · decide
  · decide

/-- A positional text behind a sign begins with the sign or a digit. -/
theorem exists_of_positional (negative : Bool) {text : List Char}
    (positional : Binary64.Positional text) :
    ∃ first rest, Binary64.signText negative ++ text = first :: rest ∧
      beginsNumber first = true := by
  obtain ⟨⟨first, rest, rfl, digit⟩, _⟩ := chars_of_positional positional
  cases negative with
  | true => exact ⟨'-', first :: rest, rfl, rfl⟩
  | false => exact ⟨first, rest, rfl, by simp [beginsNumber, digit]⟩

/-- No layout with a mark that is neither a digit nor a point is found at a number. -/
theorem layoutWidth?_number (layout ending : String) (mark : Char)
    (begins : layout.toList.head? = some '0') (inLayout : mark ∈ layout.toList)
    (other : mark.isDigit = false ∧ mark ≠ '.') (negative : Bool) {text : List Char}
    (positional : Binary64.Positional text) :
    layoutWidth? layout ending (Binary64.signText negative ++ text) = none := by
  cases negative with
  | true => exact layoutWidth?_of_notDigit layout ending text begins (by decide)
  | false =>
      apply layoutWidth?_eq_none mark inLayout
      · rintro rfl
        exact Bool.noConfusion other.1
      · intro inText
        rcases (chars_of_positional positional).2 mark inText with digit | point
        · rw [other.1] at digit
          contradiction
        · exact other.2 point

/-- A number has no unit of a span of time. -/
theorem shorthandReadings_number (negative : Bool) {text : List Char}
    (positional : Binary64.Positional text) :
    shorthandReadings (Binary64.signText negative ++ text) = [0] := by
  apply shorthandReadings_eq
  intro c member
  apply isNoUnit_of_numeric
  rcases List.mem_append.mp member with sign | inText
  · cases negative with
    | true => exact Or.inr (Or.inl (List.mem_singleton.mp sign))
    | false => contradiction
  · exact ((chars_of_positional positional).2 c inText).imp_right Or.inr

/-- A number has no quotes around it. -/
theorem quotedWidth?_number (negative : Bool) {text : List Char}
    (positional : Binary64.Positional text) :
    quotedWidth? (Binary64.signText negative ++ text) = none := by
  obtain ⟨⟨first, rest, first_eq, digit⟩, _⟩ := chars_of_positional positional
  rw [first_eq]
  cases negative with
  | true => rfl
  | false => exact quotedWidth?_digit rest digit

/-- A positional text behind a sign is found as a number. -/
theorem firstMatch?_literal_number (negative : Bool) {text : List Char}
    (positional : Binary64.Positional text) :
    firstMatch? literalPatterns (Binary64.signText negative ++ text) =
      some (.value .number, (Binary64.signText negative ++ text).length) := by
  have noQuote := quotedWidth?_number negative positional
  have noDateTime := layoutWidth?_number "0000-00-00 00:00" ":00" ':' rfl (by decide) (by decide)
    negative positional
  have noDate := layoutWidth?_number "0000-00-00" "" '-' rfl (by decide) (by decide) negative
    positional
  have noClock := layoutWidth?_number "00:00" ":00" ':' rfl (by decide) (by decide) negative
    positional
  have admitted : (Pattern.mk (.value .number) numberWidth?).admitted?
      (Binary64.signText negative ++ text) =
        some (Binary64.signText negative ++ text).length := by
    have width := numberWidth?_positional negative positional
    obtain ⟨first, rest, chars, begins⟩ := exists_of_positional negative positional
    rw [chars] at width ⊢
    exact admitted?_whole (facts_of_beginsLiteral (beginsLiteral_of_beginsNumber begins)).2.1 width
  rw [literalPatterns, firstMatch?_cons_none (admitted?_eq_none noQuote),
    firstMatch?_cons_none (admitted?_eq_none noDateTime),
    firstMatch?_cons_none (admitted?_eq_none noDate),
    firstMatch?_cons_none (admitted?_eq_none noClock),
    firstMatch?_cons_none
      (admitted?_shorthand_eq_none (shorthandReadings_number negative positional)),
    firstMatch?_cons_some admitted]

/-! ## Texts -/

/-- A text between quotes that it does not hold is found as a whole. -/
theorem firstMatch?_literal_quoted {quote : Char} {content : List Char}
    (isQuote : isQuote quote = true) (absent : quote ∉ content) :
    firstMatch? literalPatterns (quote :: (content ++ [quote])) =
      some (.value .string, (quote :: (content ++ [quote])).length) := by
  have visible : isBlank quote = false :=
    (facts_of_beginsLiteral (by simp [beginsLiteral, isQuote])).2.1
  have closing : (content ++ [quote]).findIdx? (· == quote) = some content.length := by
    have notInside : content.findIdx? (· == quote) = none := by
      rw [List.findIdx?_eq_none_iff]
      rintro c member
      rw [beq_eq_false_iff_ne]
      rintro rfl
      exact absent member
    rw [List.findIdx?_append, notInside]
    simp
  have width : quotedWidth? (quote :: (content ++ [quote])) =
      some (quote :: (content ++ [quote])).length := by
    rw [quotedWidth?, if_pos isQuote, closing]
    simp
  exact firstMatch?_cons_some (admitted?_whole visible width)

/-- A text is put between quotes that it does not hold. -/
theorem exists_of_quoteText {content : String} (plain : (Value.text content).isPlain = true) :
    ∃ quote, isQuote quote = true ∧ quote ∉ content.toList ∧
      (Value.quoteText content).toList = quote :: (content.toList ++ [quote]) := by
  rw [Value.quoteText]
  split
  · next double =>
      simp only [Value.isPlain, double, Bool.true_and, Bool.not_eq_true'] at plain
      exact ⟨'\'', rfl, by simpa using plain, by simp⟩
  · next notDouble => exact ⟨'"', rfl, by simpa using notDouble, by simp⟩

/-! ## Truth values -/

/-- What a name has in common with the start of a text begins the name. -/
theorem dropLetters?_swap {letters text rest left : List Char}
    (dropped : dropLetters? letters (text ++ rest) = some left)
    (longer : text.length ≤ letters.length) : (dropLetters? text letters).isSome = true := by
  induction text generalizing letters with
  | nil => rfl
  | cons c text ih =>
      cases letters with
      | nil => contradiction
      | cons letter letters =>
          rw [List.cons_append, dropLetters?] at dropped
          split at dropped
          · next same =>
              have swapped : sameLetter letter c = true := by
                simp only [sameLetter, beq_iff_eq] at same ⊢
                exact same.symm
              rw [dropLetters?, if_pos swapped]
              exact ih dropped (Nat.le_of_succ_le_succ longer)
          · contradiction

/-- At a run of letters no name is found that does not begin with the run. -/
theorem admitted?_namePattern_run {name : String} {first : Char} {text rest : List Char}
    (letters : ∀ c ∈ first :: text, (fold c).isLower = true) (breaks : BreaksWord rest)
    (apart : dropLetters? (first :: text) name.toList = none) :
    (namePattern name).admitted? (first :: text ++ rest) = none := by
  rw [Option.eq_none_iff_forall_ne_some]
  intro width admitted
  rcases Option.filter_eq_some_iff.mp admitted with ⟨matched, admissible⟩
  rcases Option.map_eq_some_iff.mp (Option.filter_eq_some_iff.mp matched).1 with
    ⟨left, dropped, width_eq⟩
  by_cases longer : (first :: text).length ≤ name.toList.length
  · have begins := dropLetters?_swap dropped longer
    rw [apart] at begins
    contradiction
  · -- A shorter name is found in the run alone, where it would have to be all of it.
    have length_eq := length_dropLetters? dropped
    have shorter : width < (first :: text).length := by
      rw [widthBefore] at width_eq
      omega
    have alone := (cuts_namePattern name).cuts breaks (Nat.le_of_lt shorter) matched
    have admittedAlone : (namePattern name).admitted? (first :: text) = some width := by
      rw [Pattern.admitted?, alone, Option.filter_some, if_pos]
      exact admissible
    rw [admitted?_namePattern_word letters admittedAlone] at shorter
    exact absurd shorter (Nat.lt_irrefl _)

/-- Where a truth value stands no name is found. -/
theorem firstMatch?_names_boolean {schema : Schema} (avoids : schema.NamesAvoidOperands)
    (truth : Bool) {rest : List Char} (breaks : BreaksWord rest) :
    firstMatch? (schema.fields.flatMap fieldPatterns)
      ((Value.boolean truth).display.toList ++ rest) = none := by
  apply firstMatch?_names_eq_none AvoidsOperands avoids
  intro name avoidsName
  have apart := avoidsName.boolean truth
  obtain ⟨first, text, shape, _, _, _, letters⟩ := exists_of_boolean truth
  rw [shape] at apart ⊢
  exact admitted?_namePattern_run (List.all_eq_true.mp letters) breaks apart

theorem findsOperand_boolean {schema : Schema} (avoids : schema.NamesAvoidOperands)
    (truth : Bool) : schema.FindsOperand (Value.boolean truth).display.toList := by
  have noName (rest : List Char) (breaks : BreaksWord rest) :=
    firstMatch?_names_boolean avoids truth breaks
  have literal := firstMatch?_literal_boolean truth
  obtain ⟨first, text, shape, visible, notO, noKeyword, _⟩ := exists_of_boolean truth
  rw [shape] at noName literal ⊢
  exact findsOperand_of_literal visible notO noKeyword noName literal rfl

end Lexicon

/-- A plain value is found as an operand by the text that is written for it. -/
theorem Schema.findsOperand_operandText {schema : Schema} (avoids : schema.NamesAvoidOperands)
    {type : ValueType} {raw : String} {value : Value} (read : type.cast? raw = some value)
    (plain : value.isPlain = true) : schema.FindsOperand value.operandText.toList := by
  cases type with
  | string =>
      cases read
      obtain ⟨quote, isQuote, absent, shape⟩ := exists_of_quoteText plain
      rw [Value.operandText, shape]
      exact findsOperand_of_beginsLiteral avoids (by simp [beginsLiteral, isQuote])
        (firstMatch?_literal_quoted isQuote absent) rfl
  | number =>
      rcases Option.map_eq_some_iff.mp read with ⟨amount, _, rfl⟩
      cases amount with
      | finite negative x =>
          obtain ⟨text, chars, positional⟩ := Binary64.exists_positional_of_toChars negative x
          have literal := firstMatch?_literal_number negative positional
          obtain ⟨first, rest, shape, begins⟩ := exists_of_positional negative positional
          change FindsOperand schema (String.ofList (Binary64.finite negative x).toChars).toList
          rw [String.toList_ofList, chars]
          rw [shape] at literal ⊢
          exact findsOperand_of_beginsLiteral avoids (beginsLiteral_of_beginsNumber begins) literal
            rfl
      | nan | infinite _ => contradiction
  | boolean =>
      rcases Option.map_eq_some_iff.mp read with ⟨truth, _, rfl⟩
      exact findsOperand_boolean avoids truth
  | date =>
      rcases Option.map_eq_some_iff.mp read with ⟨day, _, rfl⟩
      change FindsOperand schema (String.ofList day.toChars).toList
      rw [String.toList_ofList]
      exact (beginsWithDigit_date day).findsOperand avoids (firstMatch?_literal_date day) rfl
  | dateTime =>
      rcases Option.map_eq_some_iff.mp read with ⟨moment, _, rfl⟩
      change FindsOperand schema (String.ofList moment.toChars).toList
      rw [String.toList_ofList]
      exact (beginsWithDigit_dateTime moment).findsOperand avoids
        (firstMatch?_literal_dateTime moment) rfl
  | time =>
      rcases Option.map_eq_some_iff.mp read with ⟨span, readSpan, rfl⟩
      rcases Option.bind_eq_some_iff.mp readSpan with ⟨seconds, _, same⟩
      cases same
      change FindsOperand schema (String.ofList (Duration.toChars seconds)).toList
      rw [String.toList_ofList]
      exact (beginsWithDigit_time seconds).findsOperand avoids (firstMatch?_literal_time seconds) rfl

end FilterQuery
