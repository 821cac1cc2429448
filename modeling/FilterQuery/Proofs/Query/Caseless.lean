import FilterQuery.Proofs.Expression.WellTyped
import FilterQuery.Proofs.Node.Relabel
import FilterQuery.Proofs.Query.TextAgreement
import FilterQuery.Proofs.Token.Caseless

/-!
# Queries and letter case

Text queries that agree up to the case of ASCII letters are accepted alike and compile to the same
expression, but for the letters of text operands.
-/

namespace FilterQuery

/-! ## Display texts -/

theorem toSmall_intercalate {separator : String} (small : toSmall separator = separator)
    (texts : List String) :
    toSmall (separator.intercalate texts) = separator.intercalate (texts.map toSmall) := by
  induction texts with
  | nil => rfl
  | cons text rest ih =>
      cases rest with
      | nil => rw [List.map_singleton, String.intercalate_singleton, String.intercalate_singleton]
      | cons next rest =>
          rw [String.intercalate_cons_of_ne_nil (List.cons_ne_nil _ _), toSmall_append,
            toSmall_append, small, ih, List.map_cons (a := text),
            String.intercalate_cons_of_ne_nil (by simp)]

namespace Value

mutual

/-- The display text of a value with small texts differs from that of the value in letter case
only. -/
theorem toSmall_display (value : Value) :
    FilterQuery.toSmall value.toSmall.display = FilterQuery.toSmall value.display := by
  match value with
  | text content => rw [toSmall, display, display, FilterQuery.toSmall_toSmall]
  | list values =>
      rw [toSmall, display, display, toSmall_intercalate rfl, toSmall_intercalate rfl,
        toSmall_displayEach values]
  | number _ | boolean _ | date _ | dateTime _ | time _ => rfl

theorem toSmall_displayEach (values : List Value) :
    (displayEach (toSmallEach values)).map FilterQuery.toSmall =
      (displayEach values).map FilterQuery.toSmall := by
  match values with
  | [] => rfl
  | value :: rest =>
      rw [toSmallEach, displayEach, displayEach, List.map_cons, List.map_cons,
        toSmall_display value, toSmall_displayEach rest]

end

end Value

/-! ## Meanings of tokens -/

theorem Token.keepsKinds_toSmall : KeepsKinds toSmall where
  kind_eq := kind_toSmall
  noOperand_eq := toSmall_noOperand

namespace Token

variable {token : Token}

theorem toField_toSmall (schema : Schema) {field : Field}
    (found : token.toField schema = .ok field) : token.toSmall.toField schema = .ok field := by
  have same : schema.field? token.toSmall.raw = schema.field? token.raw :=
    calc schema.field? token.value.toSmall.display
      _ = schema.field? (FilterQuery.toSmall token.value.toSmall.display) :=
          (schema.field?_toSmall _).symm
      _ = schema.field? (FilterQuery.toSmall token.value.display) := by
          rw [Value.toSmall_display]
      _ = schema.field? token.value.display := schema.field?_toSmall _
  unfold toField at found ⊢
  rw [kind_toSmall, same]
  split at found
  · exact found
  · contradiction

theorem toOperator_toSmall {operator : Operator} (meant : token.toOperator = .ok operator) :
    token.toSmall.toOperator = .ok operator := by
  unfold toOperator at meant ⊢
  rw [kind_toSmall]
  split at meant
  · contradiction
  · exact meant

theorem toLogic_toSmall {connective : Logic} (meant : token.toLogic = .ok connective) :
    token.toSmall.toLogic = .ok connective := by
  unfold toLogic at meant ⊢
  rw [kind_toSmall]
  split at meant
  · contradiction
  · exact meant

theorem toValue_toSmall {value : Value} (meant : token.toValue = .ok value) :
    token.toSmall.toValue = .ok value.toSmall := by
  unfold toValue at meant ⊢
  rw [kind_toSmall]
  split at meant
  · next isValue =>
      cases meant
      exact if_pos isValue
  · contradiction

theorem mapM_toValue_toSmall {tokens : List Token} {values : List Value}
    (meant : tokens.mapM toValue = .ok values) :
    (tokens.map toSmall).mapM toValue = .ok (values.map Value.toSmall) := by
  induction tokens generalizing values with
  | nil =>
      cases meant
      rfl
  | cons token tokens ih =>
      rw [List.mapM_cons] at meant
      rcases bind_eq_ok_iff.mp meant with ⟨first, meantFirst, meant⟩
      rcases bind_eq_ok_iff.mp meant with ⟨others, meantOthers, same⟩
      cases same
      rw [List.map_cons, List.mapM_cons]
      refine bind_eq_ok_iff.mpr ⟨_, toValue_toSmall meantFirst, ?_⟩
      exact bind_eq_ok_iff.mpr ⟨_, ih meantOthers, rfl⟩

end Token

theorem Operand.toValue_toSmall {operand : Operand} {value : Value}
    (meant : operand.toValue = .ok value) :
    (operand.relabel Token.toSmall).toValue = .ok value.toSmall := by
  cases operand with
  | single token => exact Token.toValue_toSmall meant
  | list tokens =>
      rcases map_eq_ok_iff.mp meant with ⟨values, meantEach, rfl⟩
      refine map_eq_ok_iff.mpr ⟨_, Token.mapM_toValue_toSmall meantEach, ?_⟩
      rw [Value.toSmall, Value.toSmallEach_eq_map]

/-- A condition with the ASCII capitals of its text operands made small. -/
def Condition.toSmall (test : Condition) : Condition :=
  { test with value := test.value.toSmall }

theorem Condition.ofLeaf_toSmall (schema : Schema) {field operator : Token} {operand : Operand}
    {test : Condition} (meant : ofLeaf schema field operator operand = .ok test) :
    ofLeaf schema field.toSmall operator.toSmall (operand.relabel Token.toSmall) =
      .ok test.toSmall := by
  rcases bind_eq_ok_iff.mp meant with ⟨entry, found, meant⟩
  rcases bind_eq_ok_iff.mp meant with ⟨relation, meantOperator, meant⟩
  rcases bind_eq_ok_iff.mp meant with ⟨value, meantValue, rest⟩
  cases rest
  refine bind_eq_ok_iff.mpr ⟨entry, Token.toField_toSmall schema found, ?_⟩
  refine bind_eq_ok_iff.mpr ⟨relation, Token.toOperator_toSmall meantOperator, ?_⟩
  exact bind_eq_ok_iff.mpr ⟨_, Operand.toValue_toSmall meantValue, rfl⟩

namespace Expression

mutual

/-- An expression with the ASCII capitals of its text operands made small. -/
def toSmall : Expression → Expression
  | condition test => condition test.toSmall
  | logic connective children => logic connective (toSmallEach children)

/-- A list of expressions with the ASCII capitals of their text operands made small. -/
def toSmallEach : List Expression → List Expression
  | [] => []
  | child :: rest => child.toSmall :: toSmallEach rest

end

mutual

/-- Token trees with small payloads mean expressions with small operands. -/
theorem ofNode_toSmall (schema : Schema) {node : Node} {expression : Expression}
    (meant : ofNode schema node = .ok expression) :
    ofNode schema (node.relabel Token.toSmall) = .ok expression.toSmall := by
  match node with
  | .leaf field operator operand =>
      rcases map_eq_ok_iff.mp meant with ⟨test, meantLeaf, rfl⟩
      exact map_eq_ok_iff.mpr ⟨_, Condition.ofLeaf_toSmall schema meantLeaf, rfl⟩
  | .logic connective children =>
      rcases bind_eq_ok_iff.mp meant with ⟨logic, meantLogic, meant⟩
      rcases bind_eq_ok_iff.mp meant with ⟨expressions, meantChildren, rest⟩
      cases rest
      refine bind_eq_ok_iff.mpr ⟨logic, Token.toLogic_toSmall meantLogic, ?_⟩
      exact bind_eq_ok_iff.mpr ⟨_, ofNodes_toSmall schema meantChildren, rfl⟩

theorem ofNodes_toSmall (schema : Schema) {nodes : List Node} {expressions : List Expression}
    (meant : ofNodes schema nodes = .ok expressions) :
    ofNodes schema (Node.relabelEach Token.toSmall nodes) = .ok (toSmallEach expressions) := by
  match nodes with
  | [] =>
      cases meant
      rfl
  | child :: rest =>
      rcases bind_eq_ok_iff.mp meant with ⟨first, meantChild, meant⟩
      rcases bind_eq_ok_iff.mp meant with ⟨others, meantRest, same⟩
      cases same
      refine bind_eq_ok_iff.mpr ⟨_, ofNode_toSmall schema meantChild, ?_⟩
      exact bind_eq_ok_iff.mpr ⟨_, ofNodes_toSmall schema meantRest, rfl⟩

end

end Expression

namespace Schema

/-- The tokens of a query with small payloads compile to the expression with small operands. -/
theorem compile_small {schema : Schema} {query : String} {result : Option Expression}
    (compiled : schema.compileText query = .ok result) :
    (Node.ofTokens ((schema.scan query).map Token.toSmall)).bind schema.compileNode =
      .ok (result.map Expression.toSmall) := by
  rcases bind_eq_ok_iff.mp compiled with ⟨tree, built, meant⟩
  refine bind_eq_ok_iff.mpr ⟨_, Node.ofTokens_relabel Token.keepsKinds_toSmall built, ?_⟩
  cases tree with
  | none =>
      cases meant
      rfl
  | some root =>
      rcases map_eq_ok_iff.mp meant with ⟨expression, meantRoot, rfl⟩
      exact map_eq_ok_iff.mpr ⟨_, Expression.ofNode_toSmall schema meantRoot, rfl⟩

/-- What decides whether a query is accepted is not changed by small payloads. -/
theorem accepts_small (schema : Schema) (query : String) :
    (firstInvalid? (schema.scan query) = none ∧ endsUnfinished (schema.scan query) = false ∧
        countKind .openGroup (schema.scan query) = countKind .closeGroup (schema.scan query)) ↔
      firstInvalid? ((schema.scan query).map Token.toSmall) = none ∧
        endsUnfinished ((schema.scan query).map Token.toSmall) = false ∧
        countKind .openGroup ((schema.scan query).map Token.toSmall) =
          countKind .closeGroup ((schema.scan query).map Token.toSmall) := by
  have keeps := Token.keepsKinds_toSmall
  rw [firstInvalid?_map keeps, endsUnfinished, endsUnfinished, lastVisible?_map keeps,
    countKind_map keeps, countKind_map keeps, Option.map_eq_none_iff, Option.any_map]
  rfl

/-- Text queries that agree up to the case of ASCII letters are valid alike, compile alike, and
compile to the same expression but for the case of the letters in text operands. -/
theorem compileText_of_sameCaseless (schema : Schema) {query other : String}
    (same : sameCaseless query other = true) :
    (schema.validateText query = .ok () ↔ schema.validateText other = .ok ()) ∧
      ((∃ result, schema.compileText query = .ok result) ↔
        ∃ result, schema.compileText other = .ok result) ∧
      ∀ left right, schema.compileText query = .ok left → schema.compileText other = .ok right →
        left.map Expression.toSmall = right.map Expression.toSmall := by
  have tokens := schema.scan_of_sameCaseless same
  refine ⟨?_, ?_, ?_⟩
  · rw [validateText_eq_ok_iff, validateText_eq_ok_iff, accepts_small, tokens, ← accepts_small]
  · rw [compileText_eq_ok_iff, compileText_eq_ok_iff, accepts_small, tokens, ← accepts_small]
  · intro left right compiledLeft compiledRight
    have small := compile_small compiledLeft
    rw [tokens, compile_small compiledRight, Except.ok.injEq] at small
    exact small.symm

/-- A label, keywords, a lookup and texts in different case. -/
theorem compileText_of_sameCaseless_trip :
    sameCaseless "(TRIP TITLE in new, 'And', X) OR Start []"
        "(trip title IN New, 'AND', x) or START []" = true ∧
      ∃ left right,
        Source.tripSchema.compileText "(TRIP TITLE in new, 'And', X) OR Start []" = .ok (some left) ∧
        Source.tripSchema.compileText "(trip title IN New, 'AND', x) or START []" = .ok (some right) ∧
        left.toSmall = right.toSmall := by
  have same : sameCaseless "(TRIP TITLE in new, 'And', X) OR Start []"
      "(trip title IN New, 'AND', x) or START []" = true := by decide
  have agree := compileText_of_sameCaseless Source.tripSchema same
  obtain ⟨left, compiledLeft⟩ := Source.exists_of_isSome_compile Source.tripSchema
    (.written .text "(TRIP TITLE in new, 'And', X) OR Start []") (by decide +kernel)
  obtain ⟨right, compiledRight⟩ := agree.2.1.mp ⟨_, compiledLeft⟩
  have equal := agree.2.2 _ _ compiledLeft compiledRight
  rw [Option.map_some, eq_comm, Option.map_eq_some_iff] at equal
  obtain ⟨expression, rfl, equal⟩ := equal
  exact ⟨same, left, expression, compiledLeft, compiledRight, equal.symm⟩

end Schema

end FilterQuery
