import FilterQuery.Proofs.Node.ArrayShape
import FilterQuery.Proofs.Query.WrittenLeaf

/-!
# The shape of operands in array queries

An operand of an array query may be a list.  Behind its first value a list needs separators, which
only the operators of membership allow, so no other operator that compares gets several operands.
Nothing stands before the first value, however, and operators that take no operand do not look at
the separators: a list of one value, or of nothing but empty texts, passes everywhere.
-/

namespace FilterQuery

/-- How a condition may have its operands: as a list exactly if they were written as one, several of
them only to ask for membership, and none but empty ones where the operator takes none. -/
structure WrittenLeaf.Shapes (written : WrittenLeaf) (test : Condition) : Prop where
  listed : (∃ values, test.value = .list values) ↔ written.listed = true
  nonempty : test.value.operands ≠ []
  compares : test.operator.isComparer = true →
    test.value.operands.length = written.operands.length
  several : test.operator.isComparer = true →
    test.operator = .compare .anyOf ∨ test.operator = .compare .noneOf ∨
      written.operands.length = 1
  absent : test.operator.isPresence = true →
    (∀ text ∈ written.operands, text = "") ∧ ∀ value ∈ test.value.operands, value = .emptyText

theorem Operator.eq_of_takesList {operator : Operator} (takesList : operator.takesList = true) :
    operator = .compare .anyOf ∨ operator = .compare .noneOf := by
  cases operator with
  | compare relation => cases relation <;> first | contradiction | simp
  | presence _ | unknown => contradiction

/-- Several operands are compared only by an operator that takes a list. -/
theorem Condition.Typed.takesList {field : Field} {test : Condition} (typed : test.Typed field)
    (isComparer : test.operator.isComparer = true) (several : test.value.operands.length ≠ 1) :
    test.operator.takesList = true := by
  rcases test.value.list_or_single with ⟨values, isList⟩ | isSingle
  · obtain ⟨nonempty, listed⟩ := typed.fits.listed isComparer values isList
    rw [isList, Value.operands] at several
    have positive := List.length_pos_iff.mpr nonempty
    exact listed (by omega)
  · rw [isSingle] at several
    exact absurd rfl several

theorem WrittenLeaf.Means.shapes {written : WrittenLeaf} {field : Field} {test : Condition}
    (means : written.Means field test) : written.Shapes test where
  listed := means.listed.symm
  nonempty := means.typed.nonempty
  compares isComparer := (means.compares isComparer).length_eq.symm
  several isComparer := by
    rw [(means.compares isComparer).length_eq]
    by_cases single : test.value.operands.length = 1
    · exact Or.inr (Or.inr single)
    · have takesList := means.typed.takesList isComparer single
      exact (Operator.eq_of_takesList takesList).imp_right Or.inl
  absent isPresence := ⟨means.absent isPresence, means.typed.absent isPresence⟩

/-- A leaf with a list of one token compiles just as with the token alone, but to a list. -/
theorem Condition.ofLeaf_singleton {schema : Schema} {subject relation token : Token}
    {test : Condition} :
    ofLeaf schema subject relation (.list [token]) = .ok { test with value := .list [test.value] } ↔
      ofLeaf schema subject relation (.single token) = .ok test := by
  have listed : (Operand.list [token]).toValue = token.toValue.map fun value => .list [value] := by
    simp only [Operand.toValue, List.mapM_cons, List.mapM_nil]
    cases token.toValue <;> rfl
  rw [ofLeaf, ofLeaf, listed, Operand.toValue]
  cases subject.toField schema with
  | error error => simp [bind, Except.bind]
  | ok field =>
      cases relation.toOperator with
      | error error => simp [bind, Except.bind]
      | ok operator =>
          cases token.toValue with
          | error error => simp [bind, Except.bind, Except.map]
          | ok value =>
              cases test
              simp [bind, Except.bind, Except.map, pure, Except.pure]

theorem map_condition_eq_ok_iff {result : Except ParseError Condition} {test : Condition} :
    (result.map fun test => some (Expression.condition test)) = .ok (some (.condition test)) ↔
      result = .ok test := by
  cases result <;> simp [Except.map]

namespace Schema

/-- A leaf of an array query compiles to what its tokens do. -/
theorem compileJson_leaf (schema : Schema) (field operator : String) {value : Json}
    {operand : Operand} :
    let subject := schema.slotToken Context.start field TokenKind.isField
    let behindField := Context.start.push schema subject
    let relation := schema.slotToken behindField operator TokenKind.isOperator
    schema.arrayOperand (behindField.push schema relation) value = .ok operand →
      schema.compileJson (.array [.string field, .string operator, value]) =
        (Condition.ofLeaf schema subject relation operand).map fun test =>
          some (.condition test) := by
  intro subject behindField relation read
  have query_eq : Node.ofQuery schema (.array [.string field, .string operator, value]) =
      .ok (some (.leaf subject relation operand)) := by
    rw [Node.ofQuery_eq_ok_some_iff, Node.ofJson, schema.arrayLeaf_string, read]
    rfl
  rw [compileJson, query_eq]
  change (Expression.ofNode schema (.leaf subject relation operand)).map some = _
  rw [Expression.ofNode]
  cases Condition.ofLeaf schema subject relation operand <;> rfl

/-- A list of one value is compiled wherever the value is, to the list of what the value means. -/
theorem compileJson_singleton (schema : Schema) (field operator : String) {value : Json}
    (scalar : value.isScalar = true) {test : Condition} :
    schema.compileJson (.array [.string field, .string operator, .array [value]]) =
        .ok (some (.condition { test with value := .list [test.value] })) ↔
      schema.compileJson (.array [.string field, .string operator, value]) =
        .ok (some (.condition test)) := by
  obtain ⟨text, readText⟩ := Json.exists_scalarText_eq_ok_iff.mpr scalar
  have single context := schema.arrayOperand_of_scalarText context readText
  have listed context : schema.arrayOperand context (.array [value]) =
      .ok (.list [schema.operandToken context text]) := by
    rw [schema.arrayOperand_array context (List.cons_ne_nil value []), operandTokens, readText]
    rfl
  rw [compileJson_leaf schema field operator (listed _),
    compileJson_leaf schema field operator (single _), map_condition_eq_ok_iff,
    map_condition_eq_ok_iff]
  exact Condition.ofLeaf_singleton

end Schema

namespace Source

variable {schema : Schema} {source : Source} {query : Json} {expression : Expression}

/-- Every condition that is compiled from an array query has its operands in the shape that its
operator allows. -/
theorem shapes_of_compile (isJson : source.json? = some query)
    (compiled : source.compile schema = .ok (some expression)) :
    List.Forall₂ WrittenLeaf.Shapes query.writtenLeaves expression.conditions := by
  obtain ⟨node, read, meant⟩ := exists_tree_of_compile compiled
  have typed := typed_of_tree read meant
  have compiles :=
    Expression.compilesTo_of_readFrom (readFrom_of_json? isJson read typed) typed meant
  exact compiles.imp fun _ _ ⟨_, _, _, _, means⟩ => means.shapes

/-- A field of texts with operators of every kind. -/
def shapeSchema : Schema :=
  ⟨[⟨"x", "", .single .string, [.compare .equal, .compare .anyOf, .presence .blank], []⟩]⟩

/-- Lists of two values, of one value and of no values that count. -/
def shapeQuery : Json :=
  .array [.string "And", .array
    [.array [.string "x", .string "In", .array [.string "a", .string "b"]],
      .array [.string "x", .string "Equal", .array [.string "a"]],
      .array [.string "x", .string "Blank", .array [.string "", .null]]]]

def shapeExpression : Expression :=
  .logic .and
    [.condition ⟨.single .string, "x", .compare .anyOf, .list [.text "a", .text "b"]⟩,
      .condition ⟨.single .string, "x", .compare .equal, .list [.text "a"]⟩,
      .condition ⟨.single .string, "x", .presence .blank, .list [.emptyText, .emptyText]⟩]

theorem shapes_of_compile_shapeQuery :
    (value shapeQuery).json? = some shapeQuery ∧
      (value shapeQuery).compile shapeSchema = .ok (some shapeExpression) ∧
      List.Forall₂ WrittenLeaf.Shapes shapeQuery.writtenLeaves shapeExpression.conditions := by
  have compiled : (value shapeQuery).compile shapeSchema = .ok (some shapeExpression) := rfl
  exact ⟨rfl, compiled, shapes_of_compile rfl compiled⟩

/-- A list may be the operand of an operator that does not ask for membership, and of one that takes
no operand at all. -/
theorem not_forall_shaped :
    (¬ ∀ (schema : Schema) (query : Json) (expression : Expression),
      schema.compileJson query = .ok (some expression) → ∀ test ∈ expression.conditions,
        (∃ values, test.value = .list values) →
          test.operator = .compare .anyOf ∨ test.operator = .compare .noneOf) ∧
      ¬ ∀ (schema : Schema) (query : Json) (expression : Expression),
        schema.compileJson query = .ok (some expression) → ∀ test ∈ expression.conditions,
          test.operator.isPresence = true → test.value = .emptyText := by
  have single : shapeSchema.compileJson
      (.array [.string "x", .string "Equal", .array [.string "a"]]) =
        .ok (some (.condition ⟨.single .string, "x", .compare .equal, .list [.text "a"]⟩)) := rfl
  have empties : shapeSchema.compileJson
      (.array [.string "x", .string "Blank", .array [.string "", .null]]) =
        .ok (some (.condition
          ⟨.single .string, "x", .presence .blank, .list [.emptyText, .emptyText]⟩)) := rfl
  constructor
  · intro claimed
    have member := claimed _ _ _ single _ List.mem_cons_self ⟨_, rfl⟩
    simp at member
  · intro claimed
    have isEmpty := claimed _ _ _ empties _ List.mem_cons_self rfl
    cases isEmpty

end Source

end FilterQuery
