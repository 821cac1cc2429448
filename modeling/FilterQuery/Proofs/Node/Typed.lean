import FilterQuery.Proofs.Node.Slot

/-!
# Typed trees

A tree is typed when each of its leaves asks of a field what the field allows and gives operands of
the field's type.  These are the trees without invalid tokens, and every one of them compiles.
-/

namespace FilterQuery

/-- Operands fit a field and an operator when they are what the operator takes of the field. -/
structure Operand.Fits (field : Field) (operator : Operator) (operand : Operand) : Prop where
  nonempty : operand.tokens ≠ []
  absent : operator.isPresence = true → ∀ token ∈ operand.tokens, token = Token.noOperand
  means : operator.isComparer = true → ∀ token ∈ operand.tokens, token.Means field
  /-- Only an operator that takes a list has more than one operand. -/
  listed : operator.isComparer = true → 2 ≤ operand.tokens.length → operator.takesList = true

/-- A tree whose tokens fit each other at every leaf and every connective. -/
inductive Node.Typed (schema : Schema) : Node → Prop
  | leaf {subject relation : Token} {operand : Operand} (field : Field)
      (names : subject.Names schema field) (asks : relation.Asks field)
      (fits : operand.Fits field relation.kind.toOperator) :
      Typed schema (.leaf subject relation operand)
  | logic {connective : Token} {children : List Node} (isLogic : connective.kind.isLogic = true)
      (nonempty : children ≠ []) (typed : ∀ child ∈ children, Typed schema child) :
      Typed schema (.logic connective children)

namespace TokenKind

/-- An operator stands for one that compares or for one that asks for presence. -/
theorem toOperator_cases {kind : TokenKind} (isOperator : kind.isOperator = true) :
    (kind.isComparer = true ∧ kind.toOperator.isComparer = true) ∨
      (kind.isPresence = true ∧ kind.toOperator.isPresence = true) := by
  cases kind with
  | comparer relation => exact Or.inl ⟨rfl, rfl⟩
  | presence test => exact Or.inr ⟨rfl, rfl⟩
  | _ => contradiction

theorem toOperator_of_isComparer {kind : TokenKind} (isComparer : kind.isComparer = true) :
    kind.toOperator.isComparer = true := by
  cases kind with
  | comparer relation => rfl
  | _ => contradiction

theorem toOperator_of_isPresence {kind : TokenKind} (isPresence : kind.isPresence = true) :
    kind.toOperator.isPresence = true := by
  cases kind with
  | presence test => rfl
  | _ => contradiction

theorem isComparer_eq_false {kind : TokenKind} (isPresence : kind.isPresence = true) :
    kind.isComparer = false := by
  cases kind with
  | presence test => rfl
  | _ => contradiction

end TokenKind

/-- Only operators that compare take a list. -/
theorem Operator.isComparer_of_takesList {operator : Operator}
    (takesList : operator.takesList = true) : operator.isComparer = true := by
  cases operator with
  | compare relation => rfl
  | presence _ | unknown => contradiction

theorem Operator.isPresence_eq_false {operator : Operator}
    (isComparer : operator.isComparer = true) : operator.isPresence = false := by
  cases operator with
  | compare relation => rfl
  | presence _ | unknown => contradiction

theorem Operator.isComparer_eq_false {operator : Operator}
    (isPresence : operator.isPresence = true) : operator.isComparer = false := by
  cases operator with
  | presence test => rfl
  | compare _ | unknown => contradiction

namespace Operand

/-- A presence operator takes the missing operand. -/
theorem fits_noOperand (field : Field) {operator : Operator}
    (isPresence : operator.isPresence = true) :
    (single Token.noOperand).Fits field operator where
  nonempty := List.cons_ne_nil _ _
  absent _ _ member := List.mem_singleton.mp member
  means isComparer := by
    rw [Operator.isPresence_eq_false isComparer] at isPresence
    contradiction
  listed _ several := absurd several (by decide)

theorem fits_single {field : Field} {operator : Operator} {token : Token}
    (isComparer : operator.isComparer = true) (means : token.Means field) :
    (single token).Fits field operator where
  nonempty := List.cons_ne_nil _ _
  absent isPresence := by
    rw [Operator.isPresence_eq_false isComparer] at isPresence
    contradiction
  means _ value member := by
    rw [List.mem_singleton.mp member]
    exact means
  listed _ several := absurd several (by simp [tokens])

theorem fits_list {field : Field} {operator : Operator} {values : List Token}
    (takesList : operator.takesList = true) (nonempty : values ≠ [])
    (means : ∀ value ∈ values, value.Means field) : (list values).Fits field operator where
  nonempty := nonempty
  absent isPresence := by
    rw [Operator.isPresence_eq_false (Operator.isComparer_of_takesList takesList)] at isPresence
    contradiction
  means _ := means
  listed _ _ := takesList

end Operand

theorem Operand.Fits.isValue {field : Field} {relation : Token} {operand : Operand}
    (fits : operand.Fits field relation.kind.toOperator) (asks : relation.Asks field) :
    ∀ token ∈ operand.tokens, token.kind.isValue = true := by
  intro token member
  rcases TokenKind.toOperator_cases asks.1 with ⟨_, isComparer⟩ | ⟨_, isPresence⟩
  · exact (fits.means isComparer token member).isValue
  · rw [fits.absent isPresence token member]
    rfl

/-- A token that belongs in a slot is not invalid. -/
theorem Slot.Holds.isInvalid_eq_false {schema : Schema} {slot : Slot} {token : Token}
    (holds : slot.Holds schema token) : token.isInvalid = false := by
  rw [Bool.eq_false_iff]
  intro isInvalid
  have shape := Token.kind_eq_of_isInvalid isInvalid
  cases slot with
  | field =>
      rcases holds with ⟨field, names⟩
      rw [names.kind_eq] at shape
      contradiction
  | connective | operator | operand =>
      simp only [Holds, shape] at holds
      contradiction

namespace Node

namespace Typed

variable {schema : Schema} {node : Node}

/-- Every slot of a typed tree holds a token that belongs there. -/
theorem holds (typed : node.Typed schema) :
    ∀ place ∈ node.slots, place.1.Holds schema place.2 := by
  induction typed with
  | leaf field names asks fits =>
      intro place member
      simp only [slots, Operand.slots, List.mem_cons, List.mem_map] at member
      rcases member with rfl | rfl | ⟨token, member, rfl⟩
      · exact ⟨field, names⟩
      · exact asks.1
      · exact fits.isValue asks token member
  | logic isLogic nonempty typed ih =>
      intro place member
      rcases List.mem_cons.mp member with rfl | member
      · exact isLogic
      · obtain ⟨child, inChildren, inSlots⟩ := mem_slotsAmong_iff.mp member
        exact ih child inChildren place inSlots

theorem filled (typed : node.Typed schema) : node.Filled schema :=
  fun place member => Or.inr (typed.holds place member)

theorem firstFault?_eq_none (typed : node.Typed schema) : firstFault? node.slots = none := by
  apply List.find?_eq_none.mpr
  intro place member
  rw [(typed.holds place member).isInvalid_eq_false]
  exact Bool.false_ne_true

/-- Every typed tree compiles. -/
theorem compiles (typed : node.Typed schema) :
    ∃ expression, Expression.ofNode schema node = .ok expression := by
  have reports := Expression.reportsOn_ofNode typed.filled
  rw [ReportsOn, typed.firstFault?_eq_none] at reports
  exact reports

end Typed

end Node

end FilterQuery
