import FilterQuery.Proofs.Expression.Rendering
import FilterQuery.Proofs.Node.Leaf

/-!
# Operands of text queries read back

An operand is written as it is shown, but for texts, which are written between quotes.  What is
written is read as the value again, by its type and by a field whose lookups have no name for it.
The values of a list are written one behind the other, with commas between them.
-/

namespace FilterQuery

open Character Lexicon

/-- A name that begins like no operand begins with no digit. -/
theorem Schema.NamesAvoidOperands.avoidsDigits {schema : Schema}
    (avoids : schema.NamesAvoidOperands) : schema.NamesAvoidDigits := by
  have avoided {name : String} (avoidsName : AvoidsOperands name) :
      name.toList.head?.any Char.isDigit = false := by
    rw [Bool.eq_false_iff]
    intro digit
    obtain ⟨c, first, isDigit⟩ := (Option.any_eq_true _ _).mp digit
    have notLiteral := avoidsName.literal
    rw [first, Option.any_some, beginsLiteral, isDigit] at notLiteral
    contradiction
  intro field inSchema
  exact ⟨avoided (avoids field inSchema).1, avoided (avoids field inSchema).2⟩

/-- The text of a number has no quote in it. -/
theorem Binary64.hasOuterQuote_toChars (negative : Bool) (x : Magnitude) :
    hasOuterQuote (String.ofList (finite negative x).toChars) = false := by
  have plain : ∀ c ∈ (finite negative x).toChars, isQuote c = false := by
    obtain ⟨text, shape, positional⟩ := exists_positional_of_toChars negative x
    rw [shape]
    intro c member
    rcases List.mem_append.mp member with sign | inText
    · cases negative with
      | true =>
          rw [List.mem_singleton.mp sign]
          rfl
      | false => contradiction
    · rcases (chars_of_positional positional).2 c inText with digit | rfl
      · exact isQuote_of_isDigit digit
      · rfl
  have unquoted {outer? : Option Char} (within : ∀ c ∈ outer?, c ∈ (finite negative x).toChars) :
      outer?.any isQuote = false := by
    cases outer? with
    | none => rfl
    | some c => exact plain c (within c rfl)
  rw [hasOuterQuote, String.toList_ofList, unquoted fun _ => List.mem_of_head?,
    unquoted fun _ => List.mem_of_getLast?]
  rfl

namespace Value

/-- What is written for a value of a type other than texts is its display text. -/
theorem operandText_eq_display {type : ValueType} {raw : String} {value : Value}
    (read : type.cast? raw = some value) (notString : type ≠ .string) :
    value.operandText = value.display := by
  cases type with
  | string => contradiction
  | _ =>
      rcases Option.map_eq_some_iff.mp read with ⟨_, _, rfl⟩
      rfl

/-- The text that is written for a plain value is read as the value and shows it without its
quotes. -/
theorem cast?_operandText {schema : Schema} (avoids : schema.NamesAvoidOperands) {type : ValueType}
    {raw : String} {value : Value} (read : type.cast? raw = some value)
    (plain : value.isPlain = true) :
    type.cast? value.operandText = some value ∧ stripQuotes value.operandText = value.display := by
  by_cases isString : type = .string
  · subst isString
    cases read
    obtain ⟨quote, isQuote, _, shape⟩ := exists_of_quoteText plain
    have stripped : stripQuotes (text (stripQuotes raw)).operandText = stripQuotes raw :=
      stripQuotes_eq isQuote shape
    exact ⟨by rw [ValueType.cast?, stripped], stripped⟩
  · rw [operandText_eq_display read isString]
    by_cases isNumber : type = .number
    · subst isNumber
      rcases Option.map_eq_some_iff.mp read with ⟨amount, _, rfl⟩
      cases amount with
      | finite negative x =>
          rw [display, ValueType.cast?, String.toList_ofList, Binary64.ofPlainChars?_toChars]
          exact ⟨rfl, stripQuotes_of_bare (Binary64.hasOuterQuote_toChars negative x)⟩
      | nan | infinite _ => contradiction
    · have bare := (foundBare_display avoids.avoidsDigits read isString isNumber).bare
      exact ⟨ValueType.cast?_display read isString isNumber, stripQuotes_of_bare bare⟩

/-! ## Lists -/

theorem operandTexts_eq_map (values : List Value) : operandTexts values = values.map operandText := by
  induction values with
  | nil => rfl
  | cons value rest ih => rw [operandTexts, ih, List.map_cons]

/-- Values as they are written behind another one. -/
def writtenBehind (values : List Value) : List Char :=
  values.flatMap fun value => ',' :: ' ' :: value.operandText.toList

/-- The values of a list are written one behind the other. -/
theorem operandText_list (value : Value) (others : List Value) :
    (list (value :: others)).operandText.toList =
      value.operandText.toList ++ writtenBehind others := by
  rw [operandText, operandTexts_eq_map]
  induction others generalizing value with
  | nil => simp [writtenBehind]
  | cons next others ih =>
      rw [List.map_cons, String.intercalate_cons_of_ne_nil (by simp), String.toList_append,
        String.toList_append, ih]
      simp [writtenBehind]

/-- Further values stand behind a comma. -/
theorem fence_writtenBehind (others : List Value) {rest : List Char} (fence : Fence rest) :
    Fence (writtenBehind others ++ rest) := by
  cases others with
  | nil => exact fence
  | cons next others => exact Fence.mark (Or.inr rfl)

/-- A value is written by its single values, and these are read as the operand that it is but for
the form of a list of one. -/
theorem exists_operands (value : Value) (nonempty : value.operands ≠ []) :
    ∃ first others, value.operands = first :: others ∧
      value.operandText.toList = first.operandText.toList ++ writtenBehind others ∧
      ∀ kind, ((Operand.single ⟨kind, first⟩).extend (others.map (Token.mk kind))).value =
        value.norm := by
  cases value with
  | list values =>
      obtain ⟨first, others, rfl⟩ := List.exists_cons_of_ne_nil nonempty
      refine ⟨first, others, rfl, operandText_list first others, ?_⟩
      intro kind
      cases others with
      | nil => rfl
      | cons next others => simp [Operand.extend, Operand.tokens, Operand.value, norm, Function.comp_def]
  | _ => exact ⟨_, [], rfl, (List.append_nil _).symm, fun _ => rfl⟩

end Value

/-! ## Fields -/

/-- A field reads a value when the text that is written for the value is found as an operand and means
the value to the field. -/
structure Field.ReadsOperand (schema : Schema) (field : Field) (value : Value) : Prop where
  found : schema.FindsOperand value.operandText.toList
  means : field.operand? value.operandText = some value

/-- A plain value of a field is read by the field, if no lookup of the field is named like it. -/
theorem Field.readsOperand {schema : Schema} (avoids : schema.NamesAvoidOperands) {field : Field}
    {raw : String} {value : Value} (read : field.type.element.cast? raw = some value)
    (plain : value.isPlain = true) (spares : field.Spares value) :
    field.ReadsOperand schema value where
  found := schema.findsOperand_operandText avoids read plain
  means := by
    obtain ⟨readAgain, stripped⟩ := Value.cast?_operandText avoids read plain
    rw [field.operand?_of_unnamed]
    · exact readAgain
    · intro lookup member
      rw [stripped]
      exact (spares lookup member).symm

end FilterQuery
