import FilterQuery.Proofs.Expression.ReadBack
import FilterQuery.Proofs.Node.TextForm

/-!
# Compiled expressions are well typed

Type, operator and operands of a condition are checked one by one while the query is read, each
against what was read before it.  In what comes out they belong together: every condition is one
that some field of the schema allows, with operands of that field's type.
-/

namespace FilterQuery

namespace Operand

variable {field : Field} {operator : Operator} {operand : Operand}

/-- A single token that fits a leaf does not carry a list. -/
theorem Fits.value_ne_list {token : Token} (fits : (single token).Fits field operator)
    (known : operator ≠ .unknown) (values : List Value) : token.value ≠ .list values := by
  intro isList
  cases shape : operator with
  | unknown => contradiction
  | presence _ =>
      have absent := fits.absent (by rw [shape]; rfl) token List.mem_cons_self
      rw [absent] at isList
      contradiction
  | compare _ =>
      obtain ⟨raw, read⟩ := (fits.means (by rw [shape]; rfl) token List.mem_cons_self).2
      rw [isList] at read
      exact ValueType.cast?_ne_list _ raw values read

/-- The value of an operand is a list only if its tokens were written as one. -/
theorem Fits.eq_list (fits : operand.Fits field operator) (known : operator ≠ .unknown)
    {values : List Value} (isList : operand.value = .list values) :
    ∃ tokens, operand = .list tokens ∧ tokens.map Token.value = values := by
  cases operand with
  | single token => exact absurd isList (fits.value_ne_list known values)
  | list tokens =>
      cases isList
      exact ⟨tokens, rfl, rfl⟩

/-- The single values of an operand are those of its tokens. -/
theorem Fits.operands_value (fits : operand.Fits field operator) (known : operator ≠ .unknown) :
    operand.value.operands = operand.tokens.map Token.value := by
  cases operand with
  | list tokens => rfl
  | single token =>
      rcases token.value.list_or_single with ⟨values, isList⟩ | isSingle
      · exact absurd isList (fits.value_ne_list known values)
      · exact isSingle

end Operand

namespace Condition

/-- A condition is typed by a field that allows it when its operands are what the operator takes of
the field. -/
structure Typed (entry : Field) (test : Condition) : Prop where
  fits : test.Fits entry
  nonempty : test.value.operands ≠ []
  absent : test.operator.isPresence = true → ∀ value ∈ test.value.operands, value = .emptyText

/-- A condition of a text query has a list of operands only if it has several of them, and no list
where the operator takes no operand. -/
structure InTextForm (test : Condition) : Prop where
  listed : ∀ values, test.value = .list values →
    test.operator.takesList = true ∧ 2 ≤ values.length
  absent : test.operator.isPresence = true → test.value = .emptyText

variable {entry : Field} {relation : Token} {operand : Operand}

theorem typed_of_fits (asks : relation.Asks entry)
    (fits : operand.Fits entry relation.kind.toOperator) :
    Typed entry ⟨entry.type, entry.name, relation.kind.toOperator, operand.value⟩ := by
  have values := fits.operands_value (TokenKind.kind_toOperator asks.1).2
  refine ⟨fits_of_typed asks fits, ?_, ?_⟩
  · change operand.value.operands ≠ []
    rw [values]
    simpa using fits.nonempty
  · intro isPresence value member
    change value ∈ operand.value.operands at member
    rw [values] at member
    rcases List.mem_map.mp member with ⟨token, inTokens, rfl⟩
    rw [fits.absent isPresence token inTokens]
    rfl

theorem inTextForm_of_fits (asks : relation.Asks entry)
    (fits : operand.Fits entry relation.kind.toOperator) (form : operand.InTextForm relation) :
    InTextForm ⟨entry.type, entry.name, relation.kind.toOperator, operand.value⟩ := by
  constructor
  · intro values isList
    rcases fits.eq_list (TokenKind.kind_toOperator asks.1).2 isList with ⟨tokens, rfl, rfl⟩
    rw [List.length_map]
    exact form
  · intro isPresence
    cases operand with
    | single token =>
        have absent := fits.absent isPresence token List.mem_cons_self
        simp only [Operand.value, absent, Token.noOperand]
    | list tokens =>
        have isComparer := Operator.isComparer_of_takesList form.1
        rw [Operator.isPresence_eq_false isComparer] at isPresence
        contradiction

end Condition

namespace Expression

/-- What holds of every condition of an expression and of every connective with its children. -/
inductive Throughout (ofTest : Condition → Prop) (ofChildren : Logic → List Expression → Prop) :
    Expression → Prop
  | condition {test : Condition} (holds : ofTest test) :
      Throughout ofTest ofChildren (.condition test)
  | logic {connective : Logic} {children : List Expression}
      (holds : ofChildren connective children)
      (each : ∀ child ∈ children, Throughout ofTest ofChildren child) :
      Throughout ofTest ofChildren (.logic connective children)

/-- Every condition is typed by a field of the schema, and every connective is known and joins
something. -/
def WellTyped (schema : Schema) : Expression → Prop :=
  Throughout (fun test => ∃ entry ∈ schema.fields, test.Typed entry)
    (fun connective children => connective ≠ .unknown ∧ children ≠ [])

/-- The expressions that text queries are compiled to. -/
def InTextForm : Expression → Prop :=
  Throughout Condition.InTextForm (fun _ children => children.length = 2)

variable {schema : Schema}

theorem length_ofNodes {nodes : List Node} {expressions : List Expression}
    (compiled : ofNodes schema nodes = .ok expressions) : expressions.length = nodes.length := by
  induction nodes generalizing expressions with
  | nil =>
      cases compiled
      rfl
  | cons node rest ih =>
      rcases ofNodes_cons_eq_ok_iff.mp compiled with ⟨first, others, _, compiledRest, rfl⟩
      rw [List.length_cons, List.length_cons, ih compiledRest]

/-- Every expression of a list comes from one of the trees. -/
theorem exists_of_mem_ofNodes {nodes : List Node} {expressions : List Expression}
    (compiled : ofNodes schema nodes = .ok expressions) {expression : Expression}
    (member : expression ∈ expressions) :
    ∃ node ∈ nodes, ofNode schema node = .ok expression := by
  induction nodes generalizing expressions with
  | nil =>
      cases compiled
      contradiction
  | cons node rest ih =>
      rcases ofNodes_cons_eq_ok_iff.mp compiled with
        ⟨first, others, compiledFirst, compiledRest, rfl⟩
      rcases List.mem_cons.mp member with rfl | member
      · exact ⟨node, List.mem_cons_self, compiledFirst⟩
      · obtain ⟨child, inRest, compiledChild⟩ := ih compiledRest member
        exact ⟨child, List.mem_cons_of_mem node inRest, compiledChild⟩

theorem wellTyped_of_typed {node : Node} (typed : node.Typed schema) {expression : Expression}
    (compiled : ofNode schema node = .ok expression) : expression.WellTyped schema := by
  induction typed generalizing expression with
  | leaf entry names asks fits =>
      rw [ofNode, Condition.ofLeaf_eq names asks.1 (fits.isValue asks)] at compiled
      cases compiled
      rcases names with ⟨_, _, found⟩
      exact Throughout.condition
        ⟨entry, List.mem_of_find?_eq_some found, Condition.typed_of_fits asks fits⟩
  | logic isLogic nonempty typed ih =>
      obtain ⟨parts, compiledParts, rfl⟩ := ofNode_logic_eq_ok isLogic compiled
      refine Throughout.logic ⟨TokenKind.toLogic_ne_unknown isLogic, ?_⟩ ?_
      · rintro rfl
        exact nonempty (List.length_eq_zero_iff.mp (length_ofNodes compiledParts).symm)
      · intro part member
        obtain ⟨child, inChildren, compiledChild⟩ := exists_of_mem_ofNodes compiledParts member
        exact ih child inChildren compiledChild

theorem inTextForm_of_typed {node : Node} (form : node.InTextForm) (typed : node.Typed schema)
    {expression : Expression} (compiled : ofNode schema node = .ok expression) :
    expression.InTextForm := by
  induction form generalizing expression with
  | leaf form =>
      cases typed with
      | leaf entry names asks fits =>
          rw [ofNode, Condition.ofLeaf_eq names asks.1 (fits.isValue asks)] at compiled
          cases compiled
          exact Throughout.condition (Condition.inTextForm_of_fits asks fits form)
  | join connective leftForm rightForm leftHolds rightHolds =>
      cases typed with
      | logic isLogic nonempty typed =>
          obtain ⟨parts, compiledParts, rfl⟩ := ofNode_logic_eq_ok isLogic compiled
          refine Throughout.logic (length_ofNodes compiledParts) ?_
          intro part member
          obtain ⟨child, inChildren, compiledChild⟩ := exists_of_mem_ofNodes compiledParts member
          have childTyped := typed child inChildren
          simp only [List.mem_cons, List.not_mem_nil, or_false] at inChildren
          rcases inChildren with rfl | rfl
          · exact leftHolds childTyped compiledChild
          · exact rightHolds childTyped compiledChild

end Expression

namespace Source

variable {schema : Schema} {source : Source} {expression : Expression}

/-- What compiles is the expression of a tree. -/
theorem exists_tree_of_compile (compiled : source.compile schema = .ok (some expression)) :
    ∃ node, source.tree schema = .ok (some node) ∧
      Expression.ofNode schema node = .ok expression := by
  rw [compile_eq_bind] at compiled
  cases read : source.tree schema with
  | error error => simp [read, Except.bind] at compiled
  | ok tree =>
      cases tree with
      | none => simp [read, Except.bind, Schema.compileNode] at compiled
      | some node =>
          refine ⟨node, rfl, ?_⟩
          cases meant : Expression.ofNode schema node with
          | error error =>
              simp [read, Except.bind, Schema.compileNode, meant, Except.map] at compiled
          | ok result =>
              simpa [read, Except.bind, Schema.compileNode, meant, Except.map] using compiled

/-- Whatever compiles is well typed, and what compiles from a text query is in text form as well. -/
theorem wellTyped_of_compile (compiled : source.compile schema = .ok (some expression)) :
    expression.WellTyped schema ∧
      ∀ query, source = .written .text query → expression.InTextForm := by
  obtain ⟨node, read, meant⟩ := exists_tree_of_compile compiled
  have typed := typed_of_tree read meant
  refine ⟨Expression.wellTyped_of_typed typed meant, ?_⟩
  rintro query rfl
  have form := Node.inTextForm_of_ofTokens (schema.run_scanFrom Context.start query.toList) read
  exact Expression.inTextForm_of_typed form typed meant

/-- Whether a query compiles to an expression with a property is found out by compiling it. -/
theorem exists_of_any_compile {schema : Schema} {source : Source} {property : Expression → Bool}
    (any : ((source.compile schema).toOption.bind id).any property = true) :
    ∃ expression, source.compile schema = .ok (some expression) ∧ property expression = true := by
  obtain ⟨expression, found, holds⟩ := (Option.any_eq_true _ _).mp any
  cases result : source.compile schema with
  | error error => simp [result, Except.toOption] at found
  | ok tree =>
      have tree_eq : tree = some expression := by simpa [result, Except.toOption] using found
      exact ⟨expression, congrArg Except.ok tree_eq, holds⟩

/-- Whether a query compiles to an expression is found out by compiling it. -/
theorem exists_of_isSome_compile (schema : Schema) (source : Source)
    (isSome : ((source.compile schema).toOption.bind id).isSome = true) :
    ∃ expression, source.compile schema = .ok (some expression) := by
  rw [← Option.any_true] at isSome
  obtain ⟨expression, compiled, _⟩ := exists_of_any_compile isSome
  exact ⟨expression, compiled⟩

theorem wellTyped_of_compile_trip :
    ∃ expression,
      (written .text "(TRIP TITLE in new, 'and', x) or start []").compile tripSchema =
        .ok (some expression) ∧
      expression.WellTyped tripSchema ∧ expression.InTextForm := by
  obtain ⟨expression, compiled⟩ := exists_of_isSome_compile tripSchema
    (written .text "(TRIP TITLE in new, 'and', x) or start []") (by decide +kernel)
  obtain ⟨wellTyped, inTextForm⟩ := wellTyped_of_compile compiled
  exact ⟨expression, compiled, wellTyped, inTextForm _ rfl⟩

end Source

end FilterQuery
