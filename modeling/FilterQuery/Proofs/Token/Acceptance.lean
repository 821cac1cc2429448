import FilterQuery.Token.Classify

/-!
# What a context accepts

Classifying a text either refuses it or yields a token that plays one of eight parts.  The parts are
listed here with what each of them requires of the context, so that nothing that is shown about
token lists has to look into the classifier again.
-/

namespace FilterQuery

namespace Token

/-- A token names a field when its text leads to that field. -/
def Names (schema : Schema) (token : Token) (field : Field) : Prop :=
  ∃ name, token = ofText .field name ∧ schema.field? name = some field

/-- A token asks something of a field when it is an operator that the field allows. -/
def Asks (token : Token) (field : Field) : Prop :=
  token.kind.isOperator = true ∧ field.allows token.kind.toOperator = true

/-- A token means something to a field when it carries a value read as the field's type. -/
def Means (token : Token) (field : Field) : Prop :=
  token.kind = .ofFieldType field.type ∧ ∃ text, field.type.cast? text = some token.value

/-- The token of a refused text is invalid. -/
@[simp]
theorem isInvalid_invalid (content : String) : (invalid content).isInvalid = true :=
  rfl

@[simp]
theorem raw_invalid (content : String) : (invalid content).raw = content :=
  rfl

theorem kind_eq_of_isInvalid {token : Token} (isInvalid : token.isInvalid = true) :
    token.kind = .invalid := by
  simpa [Token.isInvalid] using isInvalid

theorem Names.kind_eq {schema : Schema} {token : Token} {field : Field}
    (names : token.Names schema field) : token.kind = .field := by
  rcases names with ⟨name, rfl, _⟩
  rfl

theorem Means.isValue {token : Token} {field : Field} (means : token.Means field) :
    token.kind.isValue = true := by
  rw [means.1]
  rfl

end Token

/-- A field is named by its own name, so that name leads to some field. -/
theorem Schema.field?_name_isSome {schema : Schema} {text : String} {field : Field}
    (found : schema.field? text = some field) : (schema.field? field.name).isSome = true := by
  have member : field ∈ schema.fields := List.mem_of_find?_eq_some found
  apply List.find?_isSome.mpr
  refine ⟨field, member, ?_⟩
  simp [Field.isNamed, sameCaseless_self]

/-- The tokens that are acceptable in a context, by the parts that they play. -/
inductive Accepts (schema : Schema) (context : Context) : Token → Prop
  | space {token : Token} (isSpace : token.kind = .space) : Accepts schema context token
  | field {token : Token} (field : Field) (expected : context.expectsField = true)
      (names : token.Names schema field) : Accepts schema context token
  | operator {token : Token} (field : Field) (behind : context.previous = some .field)
      (current : context.field = some field) (asks : token.Asks field) :
      Accepts schema context token
  | value {token : Token} (field : Field) (expected : context.expectsValue = true)
      (takes : context.takesOperand = true) (current : context.field = some field)
      (means : token.Means field) : Accepts schema context token
  | logic {token : Token} (isLogic : token.kind.isLogic = true)
      (complete : context.isComplete = true) : Accepts schema context token
  | separator {token : Token} (isSeparator : token.kind.isSeparator = true)
      (allowed : context.allowsSeparator = true) : Accepts schema context token
  | openGroup {token : Token} (opens : token.kind = .openGroup)
      (expected : context.expectsField = true) : Accepts schema context token
  | closeGroup {token : Token} (closes : token.kind = .closeGroup)
      (allowed : context.allowsClose = true) : Accepts schema context token

/-- An accepted token is not invalid. -/
theorem Accepts.isInvalid_eq_false {schema : Schema} {context : Context} {token : Token}
    (accepted : Accepts schema context token) : token.isInvalid = false := by
  rw [Bool.eq_false_iff]
  intro isInvalid
  have shape : token.kind = .invalid := by simpa [Token.isInvalid] using isInvalid
  cases accepted with
  | space kind_eq | openGroup kind_eq | closeGroup kind_eq =>
      rw [shape] at kind_eq
      contradiction
  | field field expected names =>
      rw [names.kind_eq] at shape
      contradiction
  | operator field behind current asks =>
      have isOperator := asks.1
      rw [shape] at isOperator
      contradiction
  | value field expected takes current means =>
      rw [means.1] at shape
      contradiction
  | logic isLogic complete =>
      rw [shape] at isLogic
      contradiction
  | separator isSeparator allowed =>
      rw [shape] at isSeparator
      contradiction

/-- A context judges a token when it is refused as a whole or accepted. -/
def Judged (schema : Schema) (context : Context) (token : Token) : Prop :=
  token.isInvalid = true ∨ Accepts schema context token

theorem Token.judged_invalid (schema : Schema) (context : Context) (raw : String) :
    Judged schema context (invalid raw) :=
  Or.inl rfl

/-- A conditional acceptance is judged when its condition makes the token acceptable. -/
theorem Token.judged_acceptedIf {schema : Schema} {context : Context} {acceptable : Bool}
    {kind : TokenKind} {raw : String}
    (accepts : acceptable = true → Accepts schema context (ofText kind raw)) :
    Judged schema context (acceptedIf acceptable kind raw) := by
  cases acceptable with
  | false => exact judged_invalid schema context raw
  | true => exact Or.inr (accepts rfl)

theorem Schema.judged_fieldToken {schema : Schema} {context : Context} (raw : String)
    (expected : context.expectsField = true) : Judged schema context (schema.fieldToken raw) := by
  unfold fieldToken
  split
  · next field found =>
      rcases Option.isSome_iff_exists.mp (field?_name_isSome found) with ⟨named, leads⟩
      exact Or.inr (Accepts.field named expected ⟨field.name, rfl, leads⟩)
  · exact Token.judged_invalid schema context raw

theorem Context.judged_valueToken (schema : Schema) {context : Context} (raw : String)
    (expected : context.expectsValue = true) :
    Judged schema context (context.valueToken raw) := by
  unfold valueToken
  split
  · exact Token.judged_invalid schema context raw
  · next field current =>
      split
      · next value read =>
          split
          · next takes =>
              exact Or.inr (Accepts.value field expected takes current ⟨rfl, _, read⟩)
          · exact Token.judged_invalid schema context raw
      · exact Token.judged_invalid schema context raw

theorem Context.judged_operator (schema : Schema) (context : Context) (kind : TokenKind)
    (raw : String) (isOperator : kind.isOperator = true) :
    Judged schema context (Token.acceptedIf (context.allows kind.toOperator) kind raw) := by
  apply Token.judged_acceptedIf
  intro allowed
  simp only [allows, Bool.and_eq_true, beq_iff_eq, Option.any_eq_true] at allowed
  rcases allowed with ⟨behind, field, current, fieldAllows⟩
  exact Accepts.operator field behind current ⟨isOperator, fieldAllows⟩

/-- A text without a shape of its own is judged as a field, as a value, or refused. -/
theorem Schema.judged_nameOrValue (schema : Schema) (context : Context) (raw : String) :
    Judged schema context
      (if context.expectsField then schema.fieldToken raw
        else if context.expectsValue then context.valueToken raw
        else Token.invalid raw) := by
  split
  · next expected => exact judged_fieldToken raw expected
  · split
    · next expected => exact context.judged_valueToken schema raw expected
    · exact Token.judged_invalid schema context raw

/-- Whatever a text is classified as, the token is refused or plays a part that the context has
room for. -/
theorem Schema.judged_of_classify {schema : Schema} {context : Context} {kind : TokenKind}
    {raw : String} {token : Token} (classified : schema.classify context kind raw = some token) :
    Judged schema context token := by
  cases kind with
  | space =>
      simp only [classify] at classified
      split at classified
      · contradiction
      · cases classified
        exact Or.inr (Accepts.space rfl)
  | invalid =>
      cases classified
      exact Token.judged_invalid schema context raw
  | field | literal =>
      simp only [classify, ← apply_ite some, Option.some.injEq] at classified
      rw [← classified]
      exact schema.judged_nameOrValue context raw
  | noOperand | value _ =>
      simp only [classify, ← apply_ite some, Option.some.injEq] at classified
      rw [← classified]
      split
      · next expected => exact context.judged_valueToken schema raw expected
      · exact Token.judged_invalid schema context raw
  | comparer relation =>
      cases classified
      exact context.judged_operator schema (.comparer relation) raw rfl
  | presence test =>
      cases classified
      exact context.judged_operator schema (.presence test) raw rfl
  | and | or =>
      cases classified
      exact Token.judged_acceptedIf (Accepts.logic rfl)
  | openGroup =>
      cases classified
      exact Token.judged_acceptedIf (Accepts.openGroup rfl)
  | closeGroup =>
      cases classified
      exact Token.judged_acceptedIf (Accepts.closeGroup rfl)
  | comma | slash =>
      cases classified
      exact Token.judged_acceptedIf (Accepts.separator rfl)

end FilterQuery
