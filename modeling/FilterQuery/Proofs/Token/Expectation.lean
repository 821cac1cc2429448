import FilterQuery.Proofs.Token.Acceptance

/-!
# What a context expects

What may follow in a query depends on the kind of its latest token that is not a space: behind some
kinds a field is expected, behind others a value, and behind others again the condition is complete.
-/

namespace FilterQuery

namespace TokenKind

/-- What an operator, an operand, a separator or a connective is not. -/
structure Ordinary (kind : TokenKind) : Prop where
  notSpace : kind ≠ .space
  notField : kind ≠ .field
  notOpen : kind ≠ .openGroup
  notClose : kind ≠ .closeGroup

theorem ordinary_of_isOperator {kind : TokenKind} (isOperator : kind.isOperator = true) :
    kind.Ordinary := by
  cases kind with
  | comparer _ | presence _ => constructor <;> exact TokenKind.noConfusion
  | _ => contradiction

theorem ordinary_of_isValue {kind : TokenKind} (isValue : kind.isValue = true) :
    kind.Ordinary ∧ kind.isOperator = false := by
  cases kind with
  | noOperand | value _ => exact ⟨by constructor <;> exact TokenKind.noConfusion, rfl⟩
  | _ => contradiction

theorem ordinary_of_isSeparator {kind : TokenKind} (isSeparator : kind.isSeparator = true) :
    kind.Ordinary ∧ kind.isOperator = false := by
  cases kind with
  | comma | slash => exact ⟨by constructor <;> exact TokenKind.noConfusion, rfl⟩
  | _ => contradiction

theorem ordinary_of_isLogic {kind : TokenKind} (isLogic : kind.isLogic = true) :
    kind.Ordinary := by
  cases kind with
  | and | or => constructor <;> exact TokenKind.noConfusion
  | _ => contradiction

end TokenKind

/-- Whether a condition that ends with a kind waits for more of itself. -/
def TokenKind.awaitsMore (kind : TokenKind) : Bool :=
  kind.isField || kind.isComparer || kind.isSeparator || kind.isLogic

theorem TokenKind.awaitsMore_of_isValue {kind : TokenKind} (isValue : kind.isValue = true) :
    kind.awaitsMore = false := by
  cases kind with
  | noOperand | value _ => rfl
  | _ => contradiction

theorem TokenKind.awaitsMore_of_isPresence {kind : TokenKind}
    (isPresence : kind.isPresence = true) : kind.awaitsMore = false := by
  cases kind with
  | presence test => rfl
  | _ => contradiction

/-- What a context expects next, by how far the condition at hand has come. -/
structure Context.Expects (context : Context) (field value complete : Bool) : Prop where
  field : context.expectsField = field
  value : context.expectsValue = value
  complete : context.isComplete = complete

namespace Context

variable {context : Context} {kind : TokenKind}

theorem expects_of_isBeforeField (behind : context.previous = some kind)
    (before : kind.isBeforeField = true) : context.Expects true false false := by
  cases kind with
  | openGroup | and | or =>
      constructor <;> simp only [expectsField, expectsValue, isComplete, behind] <;> rfl
  | _ => contradiction

theorem expects_of_isComparer (behind : context.previous = some kind)
    (comparer : kind.isComparer = true) : context.Expects false true false := by
  cases kind with
  | comparer relation =>
      constructor <;> simp only [expectsField, expectsValue, isComplete, behind] <;> rfl
  | _ => contradiction

theorem expects_of_isPresence (behind : context.previous = some kind)
    (presence : kind.isPresence = true) : context.Expects false true true := by
  cases kind with
  | presence test =>
      constructor <;> simp only [expectsField, expectsValue, isComplete, behind] <;> rfl
  | _ => contradiction

theorem expects_of_isValue (behind : context.previous = some kind)
    (value : kind.isValue = true) : context.Expects false false true := by
  cases kind with
  | noOperand | value type =>
      constructor <;> simp only [expectsField, expectsValue, isComplete, behind] <;> rfl
  | _ => contradiction

theorem expects_of_isSeparator (behind : context.previous = some kind)
    (separator : kind.isSeparator = true) : context.Expects false true false := by
  cases kind with
  | comma | slash =>
      constructor <;> simp only [expectsField, expectsValue, isComplete, behind] <;> rfl
  | _ => contradiction

theorem expects_of_isField (behind : context.previous = some kind) (field : kind.isField = true) :
    context.Expects false false false := by
  cases kind with
  | field => constructor <;> simp only [expectsField, expectsValue, isComplete, behind] <;> rfl
  | _ => contradiction

/-- A separator is only allowed behind something complete. -/
theorem isComplete_of_allowsSeparator (allowed : context.allowsSeparator = true) :
    context.isComplete = true := by
  simp only [allowsSeparator, Bool.and_eq_true] at allowed
  rcases (Option.any_eq_true _ _).mp allowed.2 with ⟨kind, behind, isValue⟩
  exact (expects_of_isValue behind isValue).complete

end Context

namespace Accepts

variable {schema : Schema} {context : Context} {token : Token}

/-- What is accepted was expected, apart from operators, which stand right behind a field. -/
theorem of_expects {field value complete : Bool} (accepted : Accepts schema context token)
    (visible : token.kind ≠ .space) (expects : context.Expects field value complete) :
    (field = true ∧ ((∃ field, token.Names schema field) ∨ token.kind = .openGroup)) ∨
      (context.previous = some .field ∧ ∃ field, context.field = some field ∧ token.Asks field) ∨
      (value = true ∧ context.takesOperand = true ∧
        ∃ field, context.field = some field ∧ token.Means field) ∨
      (complete = true ∧ (token.kind.isLogic = true ∨ context.allowsSeparator = true ∨
        token.kind = .closeGroup ∧ context.closed < context.opened)) := by
  rw [← expects.field, ← expects.value, ← expects.complete]
  cases accepted with
  | space isSpace => exact absurd isSpace visible
  | field field expected names => exact Or.inl ⟨expected, Or.inl ⟨field, names⟩⟩
  | openGroup opens expected => exact Or.inl ⟨expected, Or.inr opens⟩
  | operator field behind current asks => exact Or.inr (Or.inl ⟨behind, field, current, asks⟩)
  | value field expected takes current means =>
      exact Or.inr (Or.inr (Or.inl ⟨expected, takes, field, current, means⟩))
  | logic isLogic complete => exact Or.inr (Or.inr (Or.inr ⟨complete, Or.inl isLogic⟩))
  | separator isSeparator allowed =>
      have complete := Context.isComplete_of_allowsSeparator allowed
      exact Or.inr (Or.inr (Or.inr ⟨complete, Or.inr (Or.inl allowed)⟩))
  | closeGroup closes allowed =>
      simp only [Context.allowsClose, Bool.and_eq_true, decide_eq_true_eq] at allowed
      exact Or.inr (Or.inr (Or.inr ⟨allowed.2, Or.inr (Or.inr ⟨closes, allowed.1⟩)⟩))

/-- Where a field is expected, only a field or an opening parenthesis is accepted. -/
theorem of_expects_field (accepted : Accepts schema context token)
    (visible : token.kind ≠ .space) (expects : context.Expects true false false) :
    (∃ field, token.Names schema field) ∨ token.kind = .openGroup := by
  rcases accepted.of_expects visible expects with
    ⟨_, expected⟩ | ⟨behind, _⟩ | ⟨impossible, _⟩ | ⟨impossible, _⟩
  · exact expected
  · have none_expected := (Context.expects_of_isField behind rfl).field
    rw [expects.field] at none_expected
    contradiction
  · contradiction
  · contradiction

/-- Behind a field only an operator of the field is accepted. -/
theorem of_behind_field (accepted : Accepts schema context token)
    (visible : token.kind ≠ .space) (behind : context.previous = some .field) :
    ∃ field, context.field = some field ∧ token.Asks field := by
  rcases accepted.of_expects visible (Context.expects_of_isField behind rfl) with
    ⟨impossible, _⟩ | ⟨_, asks⟩ | ⟨impossible, _⟩ | ⟨impossible, _⟩
  · contradiction
  · exact asks
  · contradiction
  · contradiction

/-- Where a value is expected, only a value of the latest field is accepted. -/
theorem of_expects_value (accepted : Accepts schema context token)
    (visible : token.kind ≠ .space) (expects : context.Expects false true false) :
    ∃ field, context.field = some field ∧ token.Means field := by
  rcases accepted.of_expects visible expects with
    ⟨impossible, _⟩ | ⟨behind, _⟩ | ⟨_, _, means⟩ | ⟨impossible, _⟩
  · contradiction
  · have none_expected := (Context.expects_of_isField behind rfl).value
    rw [expects.value] at none_expected
    contradiction
  · exact means
  · contradiction

/-- Behind an operator that takes no operand only a connective or the end of a group is
accepted. -/
theorem of_behind_presence (accepted : Accepts schema context token)
    (visible : token.kind ≠ .space) {test : Presence}
    (behind : context.previous = some (.presence test))
    (latest : context.operator = some (.presence test)) :
    token.kind.isLogic = true ∨ token.kind = .closeGroup ∧ context.closed < context.opened := by
  rcases accepted.of_expects visible (Context.expects_of_isPresence behind rfl) with
    ⟨impossible, _⟩ | ⟨behindField, _⟩ | ⟨_, takes, _⟩ | ⟨_, isLogic | allowed | closes⟩
  · contradiction
  · simp [behind] at behindField
  · simp [Context.takesOperand, latest, Operator.isComparer] at takes
  · exact Or.inl isLogic
  · simp [Context.allowsSeparator, latest, Operator.takesList] at allowed
  · exact Or.inr closes

/-- A closing parenthesis is only accepted behind something complete. -/
theorem isComplete_of_closeGroup (accepted : Accepts schema context token)
    (closes : token.kind = .closeGroup) : context.isComplete = true := by
  cases accepted with
  | closeGroup shape allowed =>
      simp only [Context.allowsClose, Bool.and_eq_true] at allowed
      exact allowed.2
  | logic isLogic complete => exact complete
  | separator isSeparator allowed => exact Context.isComplete_of_allowsSeparator allowed
  | space shape | openGroup shape =>
      rw [closes] at shape
      contradiction
  | field field expected names =>
      rw [names.kind_eq] at closes
      contradiction
  | operator field behind current asks =>
      have isOperator := asks.1
      rw [closes] at isOperator
      contradiction
  | value field expected takes current means =>
      rw [means.1] at closes
      contradiction

end Accepts

/-- A value that was judged was expected, behind an operator that takes it, and it means something
to the latest field. -/
theorem Judged.expected_of_isValue {schema : Schema} {context : Context} {token : Token}
    (judged : Judged schema context token) (isValue : token.kind.isValue = true) :
    context.expectsValue = true ∧ context.takesOperand = true ∧
      ∃ field, context.field = some field ∧ token.Means field := by
  rcases judged with isInvalid | accepted
  · have shape : token.kind = .invalid := by simpa [Token.isInvalid] using isInvalid
    rw [shape] at isValue
    contradiction
  · cases accepted with
    | value field expected takes current means =>
        exact ⟨expected, takes, field, current, means⟩
    | field field expected names =>
        rw [names.kind_eq] at isValue
        contradiction
    | space shape | openGroup shape | closeGroup shape =>
        rw [shape] at isValue
        contradiction
    | operator _ _ _ asks =>
        have isOperator := asks.1
        rw [(TokenKind.ordinary_of_isValue isValue).2] at isOperator
        contradiction
    | logic isLogic =>
        cases shape : token.kind <;> simp_all [TokenKind.isValue, TokenKind.isLogic]
    | separator isSeparator =>
        cases shape : token.kind <;> simp_all [TokenKind.isValue, TokenKind.isSeparator]

end FilterQuery
