import FilterQuery.Proofs.Token.History

/-!
# What a token is read from

A token bears the text that it was read from: as it is, as the field that the text names, or as the
value that a field takes the text for.  Nothing else becomes of a text, whatever it was classified
as and wherever it stands.
-/

namespace FilterQuery

/-- What a text may be read as in a query. -/
inductive Token.ReadFrom (schema : Schema) (text : String) : Token → Prop
  | verbatim (kind : TokenKind) : ReadFrom schema text (ofText kind text)
  | field (field : Field) (named : schema.field? text = some field) :
      ReadFrom schema text (ofText .field field.name)
  | value (field : Field) (member : field ∈ schema.fields) {value : Value}
      (means : field.operand? text = some value) :
      ReadFrom schema text ⟨.ofFieldType field.type, value⟩

/-- A token that is neither a field nor an operand has its text itself. -/
theorem Token.ReadFrom.exists_eq_ofText {schema : Schema} {text : String} {token : Token}
    (readFrom : token.ReadFrom schema text)
    (neither : token.kind.isField = false ∧ token.kind.isValue = false) :
    ∃ kind, token = ofText kind text := by
  cases readFrom with
  | verbatim kind => exact ⟨kind, rfl⟩
  | field field named => exact absurd neither.1 Bool.noConfusion
  | value field member means => exact absurd neither.2 Bool.noConfusion

theorem TokenKind.neither_of_isOperator {kind : TokenKind} (isOperator : kind.isOperator = true) :
    kind.isField = false ∧ kind.isValue = false := by
  cases kind with
  | comparer _ | presence _ => exact ⟨rfl, rfl⟩
  | _ => contradiction

theorem TokenKind.neither_of_isSeparator {kind : TokenKind}
    (isSeparator : kind.isSeparator = true) : kind.isField = false ∧ kind.isValue = false := by
  cases kind with
  | comma | slash => exact ⟨rfl, rfl⟩
  | _ => contradiction

theorem TokenKind.neither_of_isLogic {kind : TokenKind} (isLogic : kind.isLogic = true) :
    kind.isField = false ∧ kind.isValue = false := by
  cases kind with
  | and | or => exact ⟨rfl, rfl⟩
  | _ => contradiction

theorem Token.exists_acceptedIf_eq (acceptable : Bool) (kind : TokenKind) (raw : String) :
    ∃ other, acceptedIf acceptable kind raw = ofText other raw ∧
      (other = kind ∨ other = .invalid) := by
  cases acceptable with
  | true => exact ⟨kind, rfl, Or.inl rfl⟩
  | false => exact ⟨.invalid, rfl, Or.inr rfl⟩

namespace Context

/-- A context is within a schema when its field is one of the schema's. -/
def Within (schema : Schema) (context : Context) : Prop :=
  ∀ field, context.field = some field → field ∈ schema.fields

variable {schema : Schema} {context : Context}

theorem within_start (schema : Schema) : start.Within schema := by
  rintro field ⟨⟩

theorem Within.push (within : context.Within schema) (token : Token) :
    (context.push schema token).Within schema := by
  intro field found
  rw [field_push] at found
  split at found
  · obtain ⟨name, _, named⟩ := Option.bind_eq_some_iff.mp found
    exact List.mem_of_find?_eq_some named
  · exact within field found

/-- An operand is refused, or the latest operator takes one and it is what the latest field takes
its text for. -/
theorem valueToken_cases (context : Context) (raw : String) :
    context.valueToken raw = Token.invalid raw ∨
      ∃ field value, context.field = some field ∧ context.takesOperand = true ∧
        field.operand? raw = some value ∧
        context.valueToken raw = ⟨.ofFieldType field.type, value⟩ := by
  unfold valueToken
  split
  · exact Or.inl rfl
  · next field current =>
      split
      · next value means =>
          split
          · next takes => exact Or.inr ⟨field, value, current, takes, means, rfl⟩
          · exact Or.inl rfl
      · exact Or.inl rfl

theorem kind_valueToken (context : Context) (raw : String) :
    (∃ type, (context.valueToken raw).kind = .ofFieldType type) ∨
      (context.valueToken raw).kind = .invalid := by
  rcases context.valueToken_cases raw with refused | ⟨field, value, _, _, _, read⟩
  · rw [refused]
    exact Or.inr rfl
  · rw [read]
    exact Or.inl ⟨field.type, rfl⟩

/-- What a text is taken for as an operand bears the text. -/
theorem Within.readFrom_valueToken (within : context.Within schema) (raw : String) :
    (context.valueToken raw).ReadFrom schema raw := by
  rcases context.valueToken_cases raw with refused | ⟨field, value, current, _, means, read⟩
  · rw [refused]
    exact .verbatim .invalid
  · rw [read]
    exact .value field (within field current) means

end Context

namespace Schema

variable {schema : Schema} {context : Context}

theorem kind_fieldToken (schema : Schema) (raw : String) :
    (schema.fieldToken raw).kind = .field ∨ (schema.fieldToken raw).kind = .invalid := by
  unfold fieldToken
  split
  · exact Or.inl rfl
  · exact Or.inr rfl

theorem readFrom_fieldToken (schema : Schema) (raw : String) :
    (schema.fieldToken raw).ReadFrom schema raw := by
  unfold fieldToken
  split
  · next field named => exact .field field named
  · exact .verbatim .invalid

/-- A text becomes the token of a field or of a value only by being looked up as the one or read as
the other.  Any other token has the text itself. -/
theorem classify_cases {kind : TokenKind} {text : String} {token : Token}
    (classified : schema.classify context kind text = some token) :
    token = schema.fieldToken text ∨ token = context.valueToken text ∨
      ∃ other, token = Token.ofText other text ∧ other.isField = false ∧
        other.isValue = false := by
  have refused : ∃ other, Token.invalid text = Token.ofText other text ∧
      other.isField = false ∧ other.isValue = false := ⟨.invalid, rfl, rfl, rfl⟩
  have accepted {acceptable : Bool} (shape : Token.acceptedIf acceptable kind text = token)
      (neither : kind.isField = false ∧ kind.isValue = false) :
      ∃ other, token = Token.ofText other text ∧ other.isField = false ∧
        other.isValue = false := by
    obtain ⟨other, same, rfl | rfl⟩ := Token.exists_acceptedIf_eq acceptable kind text
    · exact ⟨other, shape ▸ same, neither⟩
    · exact ⟨.invalid, shape ▸ same, rfl, rfl⟩
  cases kind with
  | space =>
      simp only [classify] at classified
      split at classified
      · contradiction
      · cases classified
        exact Or.inr (Or.inr ⟨.space, rfl, rfl, rfl⟩)
  | invalid =>
      cases classified
      exact Or.inr (Or.inr refused)
  | field | literal =>
      simp only [classify, ← apply_ite some, Option.some.injEq] at classified
      rw [← classified]
      split
      · exact Or.inl rfl
      · split
        · exact Or.inr (Or.inl rfl)
        · exact Or.inr (Or.inr refused)
  | noOperand | value _ =>
      simp only [classify, ← apply_ite some, Option.some.injEq] at classified
      rw [← classified]
      split
      · exact Or.inr (Or.inl rfl)
      · exact Or.inr (Or.inr refused)
  | comparer _ | presence _ | and | or | openGroup | closeGroup | comma | slash =>
      exact Or.inr (Or.inr (accepted (Option.some.inj classified) ⟨rfl, rfl⟩))

/-- Whatever a text is classified as, its token bears the text. -/
theorem readFrom_of_classify (within : context.Within schema) {kind : TokenKind} {text : String}
    {token : Token} (classified : schema.classify context kind text = some token) :
    token.ReadFrom schema text := by
  rcases classify_cases classified with rfl | rfl | ⟨other, rfl, _⟩
  · exact schema.readFrom_fieldToken text
  · exact within.readFrom_valueToken text
  · exact .verbatim other

end Schema

end FilterQuery
