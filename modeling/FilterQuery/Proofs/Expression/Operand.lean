import FilterQuery.Expression.ArrayForm
import FilterQuery.Proofs.Lexicon.Display
import FilterQuery.Proofs.Node.ArrayTyped

/-!
# Operands read back

A value is written in an array query so that it is read back: its text is either found as a whole,
and not as a keyword, or it is taken whole by a field of texts.  Quotes are only put around texts
that would be misread without them, and reading takes them off again.
-/

namespace FilterQuery

open Lexicon

namespace Value

/-- The text of a single value in an array query. -/
def written : Value → String
  | text content => if needsQuotes content then "\"" ++ content ++ "\"" else content
  | value => value.display

/-- The single values of an operand. -/
def operands : Value → List Value
  | list values => values
  | value => [value]

/-- A value is a list or its own single operand. -/
theorem list_or_single (value : Value) :
    (∃ values, value = .list values) ∨ value.operands = [value] := by
  cases value with
  | list values => exact Or.inl ⟨values, rfl⟩
  | _ => exact Or.inr rfl

theorem toJsonEach_eq_map (values : List Value) : toJsonEach values = values.map toJson := by
  induction values with
  | nil => rfl
  | cons value rest ih => rw [toJsonEach, ih, List.map_cons]

end Value

/-- No lookup of a field is named like a value, with or without double quotes around it. -/
def Field.Unshadowed (field : Field) (value : Value) : Prop :=
  ∀ lookup ∈ field.values, sameCaseless lookup.name value.display = false ∧
    sameCaseless lookup.name ("\"" ++ value.display ++ "\"") = false

/-- A text is written for a value of a type when it is read as the value and, as it is or without
quotes, is the display text of the value. -/
structure Value.WrittenAs (schema : Schema) (type : ValueType) (value : Value) (text : String) :
    Prop where
  read : type.cast? text = some value
  shown : text = value.display ∨ text = "\"" ++ value.display ++ "\""
  stripped : stripQuotes text = value.display
  found : ∀ kind, schema.findExact? text = some kind → kind.suggestsOperand = true
  /-- Only fields of texts take a text that is not found as a whole. -/
  taken : type = .string ∨ ∃ kind, schema.findExact? text = some kind

namespace Value

variable {schema : Schema}

/-- A text in quotes is not found as a keyword. -/
theorem suggestsOperand_of_wrapped {content : String} {kind : TokenKind}
    (found : schema.findExact? ("\"" ++ content ++ "\"") = some kind) :
    kind.suggestsOperand = true := by
  have shape : ("\"" ++ content ++ "\"").toList = '"' :: (content.toList ++ ['"']) := by
    simp
  rw [Schema.findExact?_eq_some_iff, shape] at found
  rcases match?_cases found with keyword | suggests
  · rw [firstMatch?_keywordPatterns_eq_none _ (mayStart_of_isQuote rfl)] at keyword
    contradiction
  · exact suggests

/-- A text that is no keyword is not found as one. -/
theorem suggestsOperand_of_isKeyword {content : String} {kind : TokenKind}
    (notKeyword : isKeyword content = false) (found : schema.findExact? content = some kind) :
    kind.suggestsOperand = true := by
  rw [Schema.findExact?_eq_some_iff] at found
  rcases match?_cases found with keyword | suggests
  · rw [isKeyword_iff.mpr ⟨_, keyword⟩] at notKeyword
    contradiction
  · exact suggests

theorem writtenAs_text (schema : Schema) (content : String) :
    (text content).WrittenAs schema .string (text content).written := by
  have written_eq : (text content).written =
      if needsQuotes content then "\"" ++ content ++ "\"" else content := rfl
  rw [written_eq]
  split
  · have stripped := stripQuotes_wrapped content
    refine ⟨?_, Or.inr rfl, stripped, fun _ => suggestsOperand_of_wrapped, Or.inl rfl⟩
    rw [ValueType.cast?, stripped]
  · next plain =>
      rw [Bool.not_eq_true, needsQuotes, Bool.or_eq_false_iff] at plain
      have stripped := stripQuotes_of_bare plain.2
      refine ⟨?_, Or.inl rfl, stripped, fun _ => suggestsOperand_of_isKeyword plain.1, Or.inl rfl⟩
      rw [ValueType.cast?, stripped]

/-- A value that is neither a text nor a number is written as it is shown. -/
theorem written_eq_display {type : ValueType} {raw : String} {value : Value}
    (read : type.cast? raw = some value) (notString : type ≠ .string) :
    value.written = value.display := by
  cases type with
  | string => contradiction
  | _ =>
      rcases Option.map_eq_some_iff.mp read with ⟨_, _, rfl⟩
      rfl

/-- Every value that is read as a type other than numbers is written so that it is read again. -/
theorem writtenAs_written (avoids : schema.NamesAvoidDigits) {type : ValueType} {raw : String}
    {value : Value} (read : type.cast? raw = some value) (notNumber : type ≠ .number) :
    value.WrittenAs schema type value.written := by
  by_cases isString : type = .string
  · subst isString
    cases read
    exact writtenAs_text schema (stripQuotes raw)
  · obtain ⟨⟨kind, found, suggests⟩, bare⟩ := foundBare_display avoids read isString notNumber
    rw [written_eq_display read isString]
    refine ⟨ValueType.cast?_display read isString notNumber, Or.inl rfl, stripQuotes_of_bare bare,
      ?_, Or.inr ⟨kind, found⟩⟩
    intro other foundOther
    rw [found] at foundOther
    cases foundOther
    exact suggests

/-- The text of a value in an array query is the one that is written for it. -/
theorem scalarText_toJson {type : ValueType} {raw : String} {value : Value}
    (read : type.cast? raw = some value) (notNumber : type ≠ .number) :
    value.toJson.scalarText = .ok value.written := by
  cases type with
  | string =>
      cases read
      rfl
  | number => contradiction
  | _ =>
      rcases Option.map_eq_some_iff.mp read with ⟨_, _, rfl⟩
      rfl

end Value

/-! ## Tokens -/

namespace Field

variable {field : Field} {value : Value}

/-- A text that no lookup of a field is named like, with or without its quotes, stands for
itself. -/
theorem operand?_of_unnamed (field : Field) {text : String}
    (unnamed : ∀ lookup ∈ field.values, sameCaseless lookup.name text = false ∧
      sameCaseless lookup.name (stripQuotes text) = false) :
    field.operand? text = field.type.cast? text := by
  have noLookup : field.lookup? text = none := by
    apply List.find?_eq_none.mpr
    intro lookup member
    rw [(unnamed lookup member).1]
    exact Bool.false_ne_true
  have noStripped : field.lookup? (stripQuotes text) = none := by
    apply List.find?_eq_none.mpr
    intro lookup member
    rw [(unnamed lookup member).2]
    exact Bool.false_ne_true
  rw [operand?, substitute, noLookup, noStripped]
  rfl

/-- A text that is written for a value means the value, unless a lookup is named like it. -/
theorem operand?_written {schema : Schema} {text : String} (unshadowed : field.Unshadowed value)
    (written : value.WrittenAs schema field.type.element text) :
    field.operand? text = some value := by
  rw [field.operand?_of_unnamed]
  · exact written.read
  · intro lookup member
    obtain ⟨bare, quoted⟩ := unshadowed lookup member
    rw [written.stripped]
    rcases written.shown with shown | shown
    · rw [shown]
      exact ⟨bare, bare⟩
    · rw [shown]
      exact ⟨quoted, bare⟩

end Field

namespace Schema

variable {schema : Schema} {context : Context} {field : Field} {operator : Operator}

/-- Where a value is expected, whatever may stand for an operand is read as one. -/
theorem classify_of_suggestsOperand (expects : context.Expects false true false)
    {kind : TokenKind} (suggests : kind.suggestsOperand = true) (raw : String) :
    schema.classify context kind raw = some (context.valueToken raw) := by
  cases kind with
  | field | literal | noOperand | value _ =>
      simp only [classify, expects.field, expects.value]
      rfl
  | _ => contradiction

/-- In a leaf that compares, a text becomes the token of the value that it means to the field. -/
theorem valueToken_eq (inLeaf : context.InLeaf field operator)
    (isComparer : operator.isComparer = true) {value : Value} {text : String}
    (means : field.operand? text = some value) :
    context.valueToken text = ⟨.ofFieldType field.type, value⟩ := by
  have takes : context.takesOperand = true := by
    rw [Context.takesOperand, inLeaf.operator_eq, Option.any_some, isComparer]
  rw [Context.valueToken, inLeaf.field_eq]
  simp only [means, takes]
  rfl

/-- In a leaf, a text that means nothing to the field becomes no value. -/
theorem valueToken_eq_invalid (inLeaf : context.InLeaf field operator) {text : String}
    (meaningless : field.operand? text = none) : context.valueToken text = Token.invalid text := by
  rw [Context.valueToken, inLeaf.field_eq]
  simp only [meaningless]

/-- In a leaf that compares, a text becomes the token of the value that it means to the field, if it
is not found as a keyword, and is found at all unless the field takes every text. -/
theorem operandToken_eq (inLeaf : context.InLeaf field operator)
    (expects : context.Expects false true false) (isComparer : operator.isComparer = true)
    {value : Value} {text : String} (means : field.operand? text = some value)
    (suggests : ∀ kind, schema.findExact? text = some kind → kind.suggestsOperand = true)
    (taken : field.type.element = .string ∨ ∃ kind, schema.findExact? text = some kind) :
    schema.operandToken context text = ⟨.ofFieldType field.type, value⟩ := by
  have token_eq := valueToken_eq inLeaf isComparer means
  have whole : schema.wholeOperand context text = ⟨.ofFieldType field.type, value⟩ := by
    unfold wholeOperand
    split
    · next kind found =>
        rw [classify_of_suggestsOperand expects (suggests kind found), Option.getD_some, token_eq]
    · next missing =>
        rcases taken with isString | ⟨kind, found⟩
        · rw [if_pos, token_eq]
          simp [Context.acceptsText, inLeaf.field_eq, isString, expects.value]
        · rw [missing] at found
          contradiction
  rw [operandToken, if_neg, whole]
  · rfl
  · simp [inLeaf.operator_eq, Operator.isPresence_eq_false isComparer]

/-- A value is taken back when its text in an array query becomes the token of the value wherever the
leaf expects one. -/
def TakesBack (schema : Schema) (field : Field) (operator : Operator) (value : Value) : Prop :=
  ∃ text, value.toJson.scalarText = .ok text ∧ ∀ context : Context,
    context.InLeaf field operator → context.Expects false true false →
      schema.operandToken context text = ⟨.ofFieldType field.type, value⟩

/-- A value of a type other than numbers is taken back, unless a lookup is named like it. -/
theorem takesBack_of_unshadowed (avoids : schema.NamesAvoidDigits)
    (notNumber : field.type.element ≠ .number) (isComparer : operator.isComparer = true)
    {value : Value} (unshadowed : field.Unshadowed value)
    (read : ∃ raw, field.type.cast? raw = some value) : schema.TakesBack field operator value := by
  obtain ⟨raw, read⟩ := read
  have written := Value.writtenAs_written avoids read notNumber
  exact ⟨value.written, Value.scalarText_toJson read notNumber, fun context inLeaf expects =>
    operandToken_eq inLeaf expects isComparer (field.operand?_written unshadowed written)
      written.found written.taken⟩

/-- Behind a separator that is allowed a value is expected. -/
theorem expects_separate (schema : Schema) {context : Context}
    (allowed : context.allowsSeparator = true) :
    (schema.separate context).Expects false true false :=
  Context.expects_of_isSeparator (schema.previous_separate context)
    (isSeparator_separatorToken allowed)

/-- A single value is written as the operand that means it. -/
theorem arrayOperand_single (inLeaf : context.InLeaf field operator)
    (expects : context.Expects false true false) {value : Value}
    (takes : schema.TakesBack field operator value) :
    schema.arrayOperand context value.toJson =
      .ok (.single ⟨.ofFieldType field.type, value⟩) := by
  obtain ⟨text, written, token⟩ := takes
  unfold arrayOperand
  split
  · next shape =>
      rw [shape] at written
      contradiction
  · next shape =>
      rw [shape] at written
      contradiction
  · rw [written, Except.map, token context inLeaf expects]

/-- The values of a list are written as the operands that mean them, one behind the other. -/
theorem operandTokens_toJson (inLeaf : context.InLeaf field operator)
    (expects : context.Expects false true false) {values : List Value}
    (takes : ∀ value ∈ values, schema.TakesBack field operator value)
    (listed : 2 ≤ values.length → operator.takesList = true) :
    schema.operandTokens context (values.map Value.toJson) =
      .ok (values.map (Token.mk (.ofFieldType field.type))) := by
  induction values generalizing context with
  | nil => rfl
  | cons value rest ih =>
      rcases List.forall_mem_cons.mp takes with ⟨⟨text, written, token⟩, restTakes⟩
      have isValue : (Token.mk (.ofFieldType field.type) value).kind.isValue = true := rfl
      have behind := inLeaf.push_value schema isValue
      refine (schema.operandTokens_cons_eq_ok_iff context).mpr
        ⟨text, rest.map (Token.mk (.ofFieldType field.type)), written, ?_, ?_⟩
      · rw [token context inLeaf expects]
        cases rest with
        | nil => rfl
        | cons second others =>
            have takesList : operator.takesList = true := listed (by simp)
            have comma := schema.expects_separate (inLeaf.allowsSeparator schema takesList isValue)
            exact ih behind.separate comma restTakes fun _ => takesList
      · rw [token context inLeaf expects, List.map_cons]

/-- A list of values is written as the list of the operands that mean them. -/
theorem arrayOperand_list (inLeaf : context.InLeaf field operator)
    (expects : context.Expects false true false) {values : List Value} (nonempty : values ≠ [])
    (takes : ∀ value ∈ values, schema.TakesBack field operator value)
    (listed : 2 ≤ values.length → operator.takesList = true) :
    schema.arrayOperand context (Value.list values).toJson =
      .ok (.list (values.map (Token.mk (.ofFieldType field.type)))) := by
  have tokens := operandTokens_toJson inLeaf expects takes listed
  rw [Value.toJson, Value.toJsonEach_eq_map]
  cases values with
  | nil => contradiction
  | cons value rest =>
      rw [List.map_cons] at tokens ⊢
      rw [arrayOperand, tokens]
      · rfl
      · simp

end Schema

end FilterQuery
