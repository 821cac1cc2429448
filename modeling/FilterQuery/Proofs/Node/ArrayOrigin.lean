import FilterQuery.Proofs.Node.ArrayTyped
import FilterQuery.Proofs.Token.Origin

/-!
# What the tokens of an array query are read from

A slot of an array query is filled from its text alone.  So every token of a slot bears the text of
its slot, a valid field is the one that the text names, and a valid operand of an operator that
compares is what the field of the leaf takes the text for.
-/

namespace FilterQuery

namespace Schema

variable {schema : Schema} {context : Context} {field : Field} {operator : Operator}

theorem readFrom_inSlot {text : String} {token : Token} (readFrom : token.ReadFrom schema text)
    (belongs : TokenKind → Bool) : (token.inSlot text belongs).ReadFrom schema text := by
  unfold Token.inSlot
  split
  · exact readFrom
  · exact .verbatim .invalid

theorem readFrom_getD_classify (within : context.Within schema) (text : String)
    (kind? : Option TokenKind) :
    ((kind?.bind fun kind => schema.classify context kind text).getD
      (Token.invalid text)).ReadFrom schema text := by
  cases classified : kind?.bind fun kind => schema.classify context kind text with
  | none => exact .verbatim .invalid
  | some token =>
      obtain ⟨kind, _, token_eq⟩ := Option.bind_eq_some_iff.mp classified
      exact readFrom_of_classify within token_eq

theorem readFrom_slotToken (within : context.Within schema) (text : String)
    (belongs : TokenKind → Bool) :
    (schema.slotToken context text belongs).ReadFrom schema text :=
  readFrom_inSlot (readFrom_getD_classify within text _) belongs

theorem readFrom_wholeOperand (within : context.Within schema) (text : String) :
    (schema.wholeOperand context text).ReadFrom schema text := by
  unfold wholeOperand
  split
  · next kind _ => exact readFrom_getD_classify within text (some kind)
  · split
    · exact within.readFrom_valueToken text
    · exact .verbatim .invalid

theorem readFrom_operandToken (within : context.Within schema) (text : String) :
    (schema.operandToken context text).ReadFrom schema text := by
  unfold operandToken
  split
  · next absent =>
      rw [Bool.and_eq_true, beq_iff_eq] at absent
      rw [absent.2]
      exact .verbatim .noOperand
  · exact readFrom_inSlot (readFrom_wholeOperand within text) TokenKind.isValue

/-- The token of an operator has the text of its slot itself. -/
theorem exists_slotToken_isOperator_eq (within : context.Within schema) (text : String) :
    ∃ kind, schema.slotToken context text TokenKind.isOperator = Token.ofText kind text := by
  apply (readFrom_slotToken within text TokenKind.isOperator).exists_eq_ofText
  cases isInvalid : (schema.slotToken context text TokenKind.isOperator).isInvalid with
  | true =>
      rw [Token.kind_eq_of_isInvalid isInvalid]
      exact ⟨rfl, rfl⟩
  | false => exact TokenKind.neither_of_isOperator (Token.inSlot_belongs isInvalid)

/-- A valid token in the slot of a field is that of the field which its text names. -/
theorem slotToken_isField {text : String}
    (valid : (schema.slotToken context text TokenKind.isField).isInvalid = false) :
    schema.slotToken context text TokenKind.isField = schema.fieldToken text := by
  unfold slotToken at valid ⊢
  dsimp only at valid ⊢
  rcases Token.inSlot_cases _ text TokenKind.isField with isInvalid | ⟨same, isField⟩
  · rw [valid] at isInvalid
    contradiction
  · rw [same]
    cases classified : (schema.findExact? text).bind fun kind =>
        schema.classify context kind text with
    | none =>
        rw [classified] at isField
        contradiction
    | some token =>
        rw [classified, Option.getD_some] at isField
        rcases Option.bind_eq_some_iff.mp classified with ⟨kind, _, token_eq⟩
        rcases classify_cases token_eq with named | rfl | ⟨other, rfl, notField, _⟩
        · exact named
        · rcases context.kind_valueToken text with ⟨type, shape⟩ | shape <;>
            rw [shape] at isField <;> contradiction
        · exact absurd isField (by simp [Token.ofText, notField])

/-- A valid token in the slot of a field names the field to which the name of the field that its
text names leads. -/
theorem exists_names_slotToken {text : String}
    (valid : (schema.slotToken context text TokenKind.isField).isInvalid = false) :
    ∃ named field, schema.field? text = some named ∧ schema.field? named.name = some field ∧
      (schema.slotToken context text TokenKind.isField).Names schema field := by
  have subject_eq := slotToken_isField valid
  rw [subject_eq, fieldToken] at valid ⊢
  cases found : schema.field? text with
  | none =>
      rw [found] at valid
      contradiction
  | some named =>
      obtain ⟨field, leads⟩ := Option.isSome_iff_exists.mp (field?_name_isSome found)
      exact ⟨named, field, rfl, leads, named.name, rfl, leads⟩

/-- A whole text is an operand only by being read as a value. -/
theorem wholeOperand_isValue {text : String}
    (isValue : (schema.wholeOperand context text).kind.isValue = true) :
    schema.wholeOperand context text = context.valueToken text := by
  unfold wholeOperand at isValue ⊢
  split at isValue
  · next kind found =>
      cases classified : schema.classify context kind text with
      | none =>
          rw [classified] at isValue
          contradiction
      | some token =>
          rw [classified, Option.getD_some] at isValue
          rcases classify_cases classified with rfl | read | ⟨other, rfl, _, notValue⟩
          · rcases schema.kind_fieldToken text with shape | shape <;>
              rw [shape] at isValue <;> contradiction
          · exact read
          · exact absurd isValue (by simp [Token.ofText, notValue])
  · next missing =>
      split at isValue
      · next taken => rw [if_pos taken]
      · contradiction

/-- A valid operand is the missing one, or what the latest field takes its text for. -/
theorem operandToken_cases {text : String}
    (valid : (schema.operandToken context text).isInvalid = false) :
    (text = "" ∧ context.operator.any (·.isPresence) = true) ∨
      ∃ field, context.field = some field ∧ context.takesOperand = true ∧
        field.operand? text = some (schema.operandToken context text).value := by
  unfold operandToken at valid ⊢
  split at valid
  · next absent =>
      rw [Bool.and_eq_true, beq_iff_eq] at absent
      exact Or.inl absent.symm
  · next present =>
      rw [if_neg present]
      rcases (schema.wholeOperand context text).inSlot_cases text TokenKind.isValue with
        isInvalid | ⟨same, isValue⟩
      · rw [valid] at isInvalid
        contradiction
      · rw [same, wholeOperand_isValue isValue]
        rw [wholeOperand_isValue isValue] at isValue
        rcases context.valueToken_cases text with refused | ⟨field, value, current, takes, means, read⟩
        · rw [refused] at isValue
          contradiction
        · rw [read]
          exact Or.inr ⟨field, current, takes, means⟩

/-- A valid operand of an operator that compares is what the field takes its text for. -/
theorem operand?_of_operandToken (inLeaf : context.InLeaf field operator)
    (isComparer : operator.isComparer = true) {text : String}
    (valid : (schema.operandToken context text).isInvalid = false) :
    field.operand? text = some (schema.operandToken context text).value := by
  rcases operandToken_cases valid with ⟨_, isPresence⟩ | ⟨latest, current, _, means⟩
  · rw [inLeaf.operator_eq, Option.any_some, Operator.isPresence_eq_false isComparer] at isPresence
    contradiction
  · rw [inLeaf.field_eq, Option.some.injEq] at current
    rw [current]
    exact means

/-- A valid operand of an operator that takes none is the empty text. -/
theorem eq_empty_of_operandToken (inLeaf : context.InLeaf field operator)
    (isPresence : operator.isPresence = true) {text : String}
    (valid : (schema.operandToken context text).isInvalid = false) : text = "" := by
  rcases operandToken_cases valid with ⟨isEmpty, _⟩ | ⟨_, _, takes, _⟩
  · exact isEmpty
  · rw [Context.takesOperand, inLeaf.operator_eq, Option.any_some,
      Operator.isComparer_eq_false isPresence] at takes
    contradiction

end Schema

end FilterQuery
