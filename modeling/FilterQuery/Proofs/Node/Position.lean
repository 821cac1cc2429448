import FilterQuery.Node.Assembly
import FilterQuery.Proofs.Node.Typed
import FilterQuery.Proofs.Token.Expectation
import FilterQuery.Proofs.Token.History

/-!
# Where a condition stands

A condition that is being built up and the context of the same tokens describe one position in the
query.  From the position follows what the context expects next, and from what is expected follows
how far the condition has come.
-/

namespace FilterQuery

namespace Pending

/-- Whether something put aside is an open group. -/
def isGroup : Pending → Bool
  | joined _ _ => false
  | group => true

/-- The kind of the token behind which something was put aside. -/
def mark : Pending → TokenKind
  | joined _ connective => connective.kind
  | group => .openGroup

/-- What was put aside is typed when its tree is and a connective follows it. -/
def Typed (schema : Schema) : Pending → Prop
  | joined left connective => left.Typed schema ∧ connective.kind.isLogic = true
  | group => True

/-- A field is expected behind everything that was put aside. -/
theorem Typed.isBeforeField_mark {schema : Schema} {pending : Pending}
    (typed : pending.Typed schema) : pending.mark.isBeforeField = true := by
  cases pending with
  | joined left connective => simp [mark, TokenKind.isBeforeField, typed.2]
  | group => rfl

end Pending

/-- Whether a condition that is being built up is the one that a context tells of. -/
def Partial.Fits (schema : Schema) (context : Context) (pending : List Pending) : Partial → Prop
  | .empty => context.previous = pending.head?.map Pending.mark
  | .field subject =>
      context.previous = some .field ∧
        ∃ field, context.field = some field ∧ subject.Names schema field
  | .operator subject relation =>
      context.previous = some relation.kind ∧ relation.kind.isComparer = true ∧
        context.operator = some relation.kind.toOperator ∧
        ∃ field, context.field = some field ∧ subject.Names schema field ∧ relation.Asks field
  | .leaf subject relation operand =>
      (context.previous.any TokenKind.isValue = true ∨
          context.previous = some relation.kind ∧ relation.kind.isPresence = true) ∧
        context.operator = some relation.kind.toOperator ∧
        ∃ field, context.field = some field ∧ subject.Names schema field ∧ relation.Asks field ∧
          operand.Fits field relation.kind.toOperator
  | .separated subject relation values =>
      context.previous.any TokenKind.isSeparator = true ∧
        context.operator = some relation.kind.toOperator ∧
        relation.kind.toOperator.takesList = true ∧ values ≠ [] ∧
        ∃ field, context.field = some field ∧ subject.Names schema field ∧ relation.Asks field ∧
          ∀ value ∈ values, value.Means field
  | .node tree => context.previous = some .closeGroup ∧ tree.Typed schema

namespace Partial.Fits

variable {schema : Schema} {context : Context} {pending : List Pending} {current : Partial}

/-- At the start of a condition a field is expected. -/
theorem expects_of_empty (typed : ∀ entry ∈ pending, entry.Typed schema)
    (fits : Partial.empty.Fits schema context pending) : context.Expects true false false := by
  cases pending with
  | nil =>
      have start : context.previous = none := fits
      constructor <;> simp only [Context.expectsField, Context.expectsValue, Context.isComplete,
        start] <;> rfl
  | cons entry rest =>
      exact Context.expects_of_isBeforeField fits
        (typed entry List.mem_cons_self).isBeforeField_mark

/-- Behind a field no other field, no operand and no end is expected. -/
theorem expects_of_field {subject : Token}
    (fits : (Partial.field subject).Fits schema context pending) :
    context.Expects false false false := by
  constructor <;> simp only [Context.expectsField, Context.expectsValue, Context.isComplete,
    fits.1] <;> rfl

theorem expects_of_operator {subject relation : Token}
    (fits : (Partial.operator subject relation).Fits schema context pending) :
    context.Expects false true false :=
  Context.expects_of_isComparer fits.1 fits.2.1

/-- A leaf is complete, and only an operator that takes no operand may seem to expect one. -/
theorem expects_of_leaf {subject relation : Token} {operand : Operand}
    (fits : (Partial.leaf subject relation operand).Fits schema context pending) :
    ∃ value, context.Expects false value true ∧ (value && context.takesOperand) = false := by
  rcases fits with ⟨value | ⟨behind, presence⟩, latest, _⟩
  · rcases (Option.any_eq_true _ _).mp value with ⟨kind, behind, isValue⟩
    exact ⟨false, Context.expects_of_isValue behind isValue, rfl⟩
  · refine ⟨true, Context.expects_of_isPresence behind presence, ?_⟩
    rw [Bool.true_and, Context.takesOperand, latest]
    cases shape : relation.kind <;> simp_all [TokenKind.isPresence, TokenKind.toOperator,
      Operator.isComparer]

/-- A leaf does not wait for more. -/
theorem awaitsMore_of_leaf {subject relation : Token} {operand : Operand}
    (fits : (Partial.leaf subject relation operand).Fits schema context pending) :
    context.previous.any TokenKind.awaitsMore = false := by
  rcases fits.1 with value | ⟨behind, presence⟩
  · rcases (Option.any_eq_true _ _).mp value with ⟨kind, behind, isValue⟩
    rw [behind]
    exact TokenKind.awaitsMore_of_isValue isValue
  · rw [behind]
    exact TokenKind.awaitsMore_of_isPresence presence

theorem expects_of_separated {subject relation : Token} {values : List Token}
    (fits : (Partial.separated subject relation values).Fits schema context pending) :
    context.Expects false true false := by
  rcases (Option.any_eq_true _ _).mp fits.1 with ⟨kind, behind, isSeparator⟩
  exact Context.expects_of_isSeparator behind isSeparator

theorem expects_of_node {tree : Node} (fits : (Partial.node tree).Fits schema context pending) :
    context.Expects false false true := by
  constructor <;> simp only [Context.expectsField, Context.expectsValue, Context.isComplete,
    fits.1] <;> rfl

/-- Where a field is expected nothing of the condition has been read. -/
theorem eq_empty (fits : current.Fits schema context pending)
    (expected : context.expectsField = true) : current = .empty := by
  cases current with
  | empty => rfl
  | field subject => simp [fits.expects_of_field.field] at expected
  | operator subject relation => simp [fits.expects_of_operator.field] at expected
  | leaf subject relation operand =>
      rcases fits.expects_of_leaf with ⟨value, expects, _⟩
      simp [expects.field] at expected
  | separated subject relation values => simp [fits.expects_of_separated.field] at expected
  | node tree => simp [fits.expects_of_node.field] at expected

/-- Where the condition is complete it has a tree. -/
theorem finish_eq_ok (typed : ∀ entry ∈ pending, entry.Typed schema)
    (fits : current.Fits schema context pending) (complete : context.isComplete = true) :
    ∃ tree, current.finish = .ok (some tree) ∧ tree.Typed schema := by
  cases current with
  | empty => simp [(fits.expects_of_empty typed).complete] at complete
  | field subject => simp [fits.expects_of_field.complete] at complete
  | operator subject relation => simp [fits.expects_of_operator.complete] at complete
  | leaf subject relation operand =>
      rcases fits with ⟨_, _, field, _, names, asks, operandFits⟩
      exact ⟨_, rfl, Node.Typed.leaf field names asks operandFits⟩
  | separated subject relation values => simp [fits.expects_of_separated.complete] at complete
  | node tree => exact ⟨tree, rfl, fits.2⟩

/-- Where an operand is expected and taken, the condition waits for it. -/
theorem awaits_operand (typed : ∀ entry ∈ pending, entry.Typed schema)
    (fits : current.Fits schema context pending) (expected : context.expectsValue = true)
    (takes : context.takesOperand = true) :
    (∃ subject relation, current = .operator subject relation) ∨
      ∃ subject relation values, current = .separated subject relation values := by
  cases current with
  | empty => simp [(fits.expects_of_empty typed).value] at expected
  | field subject => simp [fits.expects_of_field.value] at expected
  | operator subject relation => exact Or.inl ⟨subject, relation, rfl⟩
  | leaf subject relation operand =>
      rcases fits.expects_of_leaf with ⟨value, expects, notTaken⟩
      simp_all [expects.value]
  | separated subject relation values => exact Or.inr ⟨subject, relation, values, rfl⟩
  | node tree => simp [fits.expects_of_node.value] at expected

/-- Right behind a field token the condition holds nothing but the field. -/
theorem eq_field (typed : ∀ entry ∈ pending, entry.Typed schema)
    (fits : current.Fits schema context pending) (behind : context.previous = some .field) :
    ∃ subject, current = .field subject := by
  have notField : context.expectsField = false := by rw [Context.expectsField, behind]; rfl
  have notValue : context.expectsValue = false := by rw [Context.expectsValue, behind]; rfl
  have notComplete : context.isComplete = false := by rw [Context.isComplete, behind]; rfl
  cases current with
  | empty => simp [(fits.expects_of_empty typed).field] at notField
  | field subject => exact ⟨subject, rfl⟩
  | operator subject relation => simp [fits.expects_of_operator.value] at notValue
  | leaf subject relation operand =>
      rcases fits.expects_of_leaf with ⟨value, expects, _⟩
      simp [expects.complete] at notComplete
  | separated subject relation values => simp [fits.expects_of_separated.value] at notValue
  | node tree => simp [fits.expects_of_node.complete] at notComplete

/-- A separator is only allowed behind an operand of a leaf. -/
theorem eq_leaf (typed : ∀ entry ∈ pending, entry.Typed schema)
    (fits : current.Fits schema context pending) (allowed : context.allowsSeparator = true) :
    ∃ subject relation operand, current = .leaf subject relation operand := by
  rw [Context.allowsSeparator, Bool.and_eq_true] at allowed
  rcases (Option.any_eq_true _ _).mp allowed.2 with ⟨kind, behind, isValue⟩
  have complete := (Context.expects_of_isValue behind isValue).complete
  cases current with
  | empty => simp [(fits.expects_of_empty typed).complete] at complete
  | field subject => simp [fits.expects_of_field.complete] at complete
  | operator subject relation => simp [fits.expects_of_operator.complete] at complete
  | leaf subject relation operand => exact ⟨subject, relation, operand, rfl⟩
  | separated subject relation values => simp [fits.expects_of_separated.complete] at complete
  | node tree =>
      rw [fits.1] at behind
      cases behind
      contradiction

/-- A space changes nothing for the condition at hand. -/
theorem space (fits : current.Fits schema context pending) (last : Option TokenKind) :
    current.Fits schema { context with last := last } pending := by
  cases current <;> exact fits

end Partial.Fits

end FilterQuery
