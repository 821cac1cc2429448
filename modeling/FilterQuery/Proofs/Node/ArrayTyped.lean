import FilterQuery.Proofs.Node.Leaf
import FilterQuery.Proofs.Node.Typed

/-!
# Typed trees of array queries

Every piece of a leaf is judged by the pieces before it.  So when no slot of an array query holds an
invalid token, the operator is one that the field allows, the operands are what the operator takes
of the field, and the tree is typed.
-/

namespace FilterQuery

/-- Behind the operator of a leaf its field and its operator are the latest ones. -/
structure Context.InLeaf (context : Context) (field : Field) (operator : Operator) : Prop where
  field_eq : context.field = some field
  operator_eq : context.operator = some operator

namespace Context

variable {schema : Schema} {context : Context} {field : Field} {operator : Operator}

theorem inLeaf_of_operator (schema : Schema) {relation : Token}
    (current : context.field = some field) (isOperator : relation.kind.isOperator = true) :
    (context.push schema relation).InLeaf field relation.kind.toOperator where
  field_eq := by
    rw [field_push, if_neg (TokenKind.ordinary_of_isOperator isOperator).notField, current]
  operator_eq := by
    rw [operator_push, if_pos isOperator]

/-- A token that is neither a field nor an operator leaves the leaf as it is. -/
theorem InLeaf.push (inLeaf : context.InLeaf field operator) {token : Token}
    (notField : token.kind ≠ .field) (notOperator : token.kind.isOperator = false) :
    (context.push schema token).InLeaf field operator where
  field_eq := by
    rw [field_push, if_neg notField, inLeaf.field_eq]
  operator_eq := by
    rw [operator_push, notOperator, inLeaf.operator_eq]
    rfl

theorem InLeaf.push_value (schema : Schema) (inLeaf : context.InLeaf field operator)
    {token : Token} (isValue : token.kind.isValue = true) :
    (context.push schema token).InLeaf field operator :=
  have ordinary := TokenKind.ordinary_of_isValue isValue
  inLeaf.push ordinary.1.notField ordinary.2

/-- Behind a value of an operator that takes a list a separator is allowed. -/
theorem InLeaf.allowsSeparator (schema : Schema) (inLeaf : context.InLeaf field operator)
    (takesList : operator.takesList = true) {token : Token} (isValue : token.kind.isValue = true) :
    (context.push schema token).allowsSeparator = true := by
  have behind := previous_push schema context (TokenKind.ordinary_of_isValue isValue).1.notSpace
  rw [Context.allowsSeparator, (inLeaf.push_value schema isValue).operator_eq, behind]
  simp only [Option.any_some, takesList, isValue, Bool.and_self]

theorem InLeaf.separate (inLeaf : context.InLeaf field operator) :
    (schema.separate context).InLeaf field operator := by
  have kind_cases : (schema.separatorToken context).kind = .comma ∨
      (schema.separatorToken context).kind = .invalid := by
    rcases schema.separatorToken_cases context with ⟨comma, _⟩ | isInvalid
    · exact Or.inl comma
    · exact Or.inr (Token.kind_eq_of_isInvalid isInvalid)
  apply InLeaf.push inLeaf
  · change (schema.separatorToken context).kind ≠ .field
    rcases kind_cases with shape | shape <;> rw [shape] <;> exact TokenKind.noConfusion
  · change (schema.separatorToken context).kind.isOperator = false
    rcases kind_cases with shape | shape <;> rw [shape] <;> rfl

end Context

/-- What an operator may take as one of its operands: nothing, or a value of the field. -/
def Operator.Takes (operator : Operator) (field : Field) (token : Token) : Prop :=
  operator.isPresence = true ∧ token = Token.noOperand ∨
    operator.isComparer = true ∧ token.Means field

theorem Operator.Takes.isValue {operator : Operator} {field : Field} {token : Token}
    (takes : operator.Takes field token) : token.kind.isValue = true := by
  rcases takes with ⟨_, rfl⟩ | ⟨_, means⟩
  · rfl
  · exact means.isValue

namespace Schema

variable {schema : Schema} {context : Context} {field : Field} {operator : Operator}

theorem judged_wholeOperand (schema : Schema) (context : Context) (text : String) :
    Judged schema context (schema.wholeOperand context text) := by
  unfold wholeOperand
  split
  · next kind found => exact schema.judged_getD_classify context text (some kind)
  · split
    · next accepted =>
        rw [Bool.and_eq_true] at accepted
        exact context.judged_valueToken schema text accepted.2
    · exact Token.judged_invalid schema context text

/-- A valid operand is what the operator of its leaf takes, and a value was expected unless the
operator takes none. -/
theorem takes_operandToken (inLeaf : context.InLeaf field operator) {text : String}
    (valid : (schema.operandToken context text).isInvalid = false) :
    operator.Takes field (schema.operandToken context text) ∧
      (operator.isComparer = true → context.expectsValue = true) := by
  unfold operandToken at valid ⊢
  split at valid
  · next absent =>
      rw [inLeaf.operator_eq, Option.any_some, Bool.and_eq_true] at absent
      rw [if_pos (by simp [inLeaf.operator_eq, absent])]
      constructor
      · exact Or.inl ⟨absent.1, rfl⟩
      · intro isComparer
        rw [Operator.isPresence_eq_false isComparer] at absent
        exact absurd absent.1 Bool.false_ne_true
  · next present =>
      rw [if_neg present]
      rcases (schema.wholeOperand context text).inSlot_cases text TokenKind.isValue with
        isInvalid | ⟨same, isValue⟩
      · rw [valid] at isInvalid
        contradiction
      · rw [same]
        rcases (schema.judged_wholeOperand context text).expected_of_isValue isValue with
          ⟨expected, takes, current, field_eq, means⟩
        rw [inLeaf.field_eq, Option.some.injEq] at field_eq
        rw [Context.takesOperand, inLeaf.operator_eq, Option.any_some] at takes
        rw [← field_eq] at means
        exact ⟨Or.inr ⟨takes, means⟩, fun _ => expected⟩

/-- The valid operands of a list are what the operator of their leaf takes, several of them only
if it takes a list. -/
theorem takes_of_operandTokens (inLeaf : context.InLeaf field operator) {values : List Json}
    {tokens : List Token} (read : schema.operandTokens context values = .ok tokens)
    (valid : ∀ token ∈ tokens, token.isInvalid = false) :
    (∀ token ∈ tokens, operator.Takes field token) ∧
      (operator.isComparer = true → 2 ≤ tokens.length → operator.takesList = true) := by
  induction values generalizing context tokens with
  | nil =>
      cases read
      simp
  | cons value rest ih =>
      rcases (schema.operandTokens_cons_eq_ok_iff context).mp read with
        ⟨text, more, _, readMore, rfl⟩
      rcases List.forall_mem_cons.mp valid with ⟨firstValid, moreValid⟩
      have taken := (takes_operandToken inLeaf firstValid).1
      have behind := inLeaf.push_value schema taken.isValue
      refine ⟨List.forall_mem_cons.mpr ⟨taken, (ih behind.separate readMore moreValid).1⟩, ?_⟩
      intro isComparer several
      cases rest with
      | nil =>
          cases readMore
          exact absurd several (by simp)
      | cons second others =>
          rcases (schema.operandTokens_cons_eq_ok_iff _).mp readMore with ⟨_, _, _, _, rfl⟩
          have secondValid := moreValid _ List.mem_cons_self
          have expected := (takes_operandToken behind.separate secondValid).2 isComparer
          have allowed := Schema.allowsSeparator_of_expectsValue expected
          rw [Context.allowsSeparator, behind.operator_eq, Option.any_some, Bool.and_eq_true]
            at allowed
          exact allowed.1

/-- A valid operand fits the field and the operator of its leaf. -/
theorem fits_of_arrayOperand (inLeaf : context.InLeaf field operator) {value : Json}
    {operand : Operand} (read : schema.arrayOperand context value = .ok operand)
    (valid : ∀ token ∈ operand.tokens, token.isInvalid = false) :
    operand.Fits field operator := by
  have taken : operand.tokens ≠ [] ∧ (∀ token ∈ operand.tokens, operator.Takes field token) ∧
      (operator.isComparer = true → 2 ≤ operand.tokens.length → operator.takesList = true) := by
    rcases schema.arrayOperand_eq_ok context read with
      ⟨values, tokens, _, nonempty, readValues, rfl⟩ | ⟨text, _, rfl⟩
    · refine ⟨?_, takes_of_operandTokens inLeaf readValues valid⟩
      rintro rfl
      cases values with
      | nil => contradiction
      | cons value rest =>
          rcases (schema.operandTokens_cons_eq_ok_iff context).mp readValues with
            ⟨_, _, _, _, impossible⟩
          contradiction
    · refine ⟨List.cons_ne_nil _ _, ?_, fun _ several => absurd several (by simp [Operand.tokens])⟩
      intro token member
      have firstValid := valid _ member
      rw [List.mem_singleton.mp member] at firstValid ⊢
      exact (takes_operandToken inLeaf firstValid).1
  rcases taken with ⟨nonempty, takes, listed⟩
  refine ⟨nonempty, ?_, ?_, listed⟩
  · intro isPresence token member
    rcases takes token member with ⟨_, absent⟩ | ⟨isComparer, _⟩
    · exact absent
    · rw [Operator.isPresence_eq_false isComparer] at isPresence
      contradiction
  · intro isComparer token member
    rcases takes token member with ⟨isPresence, _⟩ | ⟨_, means⟩
    · rw [Operator.isPresence_eq_false isComparer] at isPresence
      contradiction
    · exact means

/-- A leaf of an array query is typed if none of its slots holds an invalid token. -/
theorem typed_of_arrayLeaf {subject relation value : Json} {node : Node}
    (read : schema.arrayLeaf subject relation value = .ok node)
    (valid : ∀ place ∈ node.slots, place.2.isInvalid = false) : node.Typed schema := by
  rcases schema.arrayLeaf_eq_ok read with
    ⟨fieldText, operatorText, operand, _, _, readOperand, rfl⟩
  simp only [Node.slots, Operand.slots, List.forall_mem_cons, List.forall_mem_map] at valid
  rcases valid with ⟨fieldValid, operatorValid, operandValid⟩
  rcases schema.fills_fieldSlot Context.start fieldText with isInvalid | ⟨field, names⟩
  · rw [fieldValid] at isInvalid
    contradiction
  have isOperator := Token.inSlot_belongs operatorValid
  have ordinary := TokenKind.ordinary_of_isOperator isOperator
  have notSpace : (schema.slotToken Context.start fieldText TokenKind.isField).kind ≠ .space := by
    rw [names.kind_eq]
    exact TokenKind.noConfusion
  have behind := Context.previous_push schema Context.start notSpace
  rw [names.kind_eq] at behind
  have current := Context.field_push_of_names schema Context.start names
  rcases schema.judged_slotToken _ operatorText TokenKind.isOperator with isInvalid | accepted
  · rw [operatorValid] at isInvalid
    contradiction
  obtain ⟨asked, asked_eq, asks⟩ := accepted.of_behind_field ordinary.notSpace behind
  rw [current, Option.some.injEq] at asked_eq
  rw [← asked_eq] at asks
  have inLeaf := Context.inLeaf_of_operator schema current isOperator
  exact Node.Typed.leaf field names asks (fits_of_arrayOperand inLeaf readOperand operandValid)

end Schema

namespace Node

variable {schema : Schema}

/-- An array query without an invalid token is read to a typed tree. -/
theorem typed_of_ofJson {query : Json} {node : Node} (read : ofJson schema query = .ok node) :
    (∀ place ∈ node.slots, place.2.isInvalid = false) → node.Typed schema := by
  refine ofJson_induction (motive := fun _ node =>
    (∀ place ∈ node.slots, place.2.isInvalid = false) → node.Typed schema) ?_ ?_ read
  · exact fun _ _ _ _ readLeaf => Schema.typed_of_arrayLeaf readLeaf
  · intro keyword children nodes nonempty each valid
    rcases List.forall_mem_cons.mp valid with ⟨connectiveValid, childrenValid⟩
    rcases Token.fills_ofConnective schema keyword with isInvalid | isLogic
    · rw [connectiveValid] at isInvalid
      contradiction
    · refine Typed.logic isLogic ?_ ?_
      · rintro rfl
        cases each
        contradiction
      · intro child inNodes
        apply forall_mem_of_forall₂ each child inNodes
        exact fun place inSlots =>
          childrenValid place (mem_slotsAmong_iff.mpr ⟨child, inNodes, inSlots⟩)

/-- The tree of an array query is typed when it compiles. -/
theorem typed_of_ofQuery {query : Json} {node : Node} {expression : Expression}
    (read : ofQuery schema query = .ok (some node))
    (compiled : Expression.ofNode schema node = .ok expression) : node.Typed schema := by
  have reports := Expression.reportsOn_ofNode (filled_of_ofQuery read)
  rw [compiled] at reports
  exact typed_of_ofJson (ofQuery_eq_ok_some_iff.mp read)
    (isInvalid_of_firstFault? reports.firstFault?_eq_none)

end Node

end FilterQuery
