import FilterQuery.Proofs.Node.ArrayOrigin
import FilterQuery.Proofs.Outcome

/-!
# The structure of array queries

An array query is judged by its structure alone.  It is read exactly if it is the empty query or a
node, its tree mirrors it piece by piece, and a schema decides neither what is wrong with its
structure nor how many pieces its tree has.
-/

namespace FilterQuery

namespace Json

/-- Whether a value may stand for one operand. -/
def isScalar : Json → Bool
  | string _ | number _ | boolean _ | null => true
  | array _ | object _ => false

/-- The structure that an array query has to have: a field and an operator with a scalar or with
scalars, or a keyword with further nodes. -/
inductive IsNode : Json → Prop
  | single (field operator : String) {value : Json} (scalar : value.isScalar = true) :
      IsNode (array [string field, string operator, value])
  | list (field operator : String) {values : List Json} (nonempty : values ≠ [])
      (scalars : ∀ value ∈ values, value.isScalar = true) :
      IsNode (array [string field, string operator, array values])
  | logic (keyword : String) {children : List Json} (nonempty : children ≠ [])
      (nodes : ∀ child ∈ children, IsNode child) :
      IsNode (array [string keyword, array children])

theorem exists_scalarText_eq_ok_iff {value : Json} :
    (∃ text, value.scalarText = .ok text) ↔ value.isScalar = true := by
  cases value <;> simp [scalarText, isScalar]

end Json

/-- A token is an operand of a value when it is read from the text of the value. -/
def Token.IsOperandOf (schema : Schema) (token : Token) (value : Json) : Prop :=
  ∃ text, value.scalarText = .ok text ∧ token.ReadFrom schema text

/-- A tree mirrors a value when each of its tokens is read from the piece of the value in the same
place, and it has no other tokens. -/
inductive Node.Mirrors (schema : Schema) : Json → Node → Prop
  | single {subject : Token} {field operator : String} {relation : TokenKind} {token : Token}
      {value : Json} (names : subject.ReadFrom schema field)
      (operand : token.IsOperandOf schema value) :
      Mirrors schema (.array [.string field, .string operator, value])
        (.leaf subject (.ofText relation operator) (.single token))
  | list {subject : Token} {field operator : String} {relation : TokenKind} {tokens : List Token}
      {values : List Json} (names : subject.ReadFrom schema field)
      (operands : List.Forall₂ (fun value token => token.IsOperandOf schema value) values tokens) :
      Mirrors schema (.array [.string field, .string operator, .array values])
        (.leaf subject (.ofText relation operator) (.list tokens))
  | logic {keyword : String} {connective : TokenKind} {nodes : List Node} {children : List Json}
      (mirrored : List.Forall₂ (Mirrors schema) children nodes) :
      Mirrors schema (.array [.string keyword, .array children])
        (.logic (.ofText connective keyword) nodes)

/-- What a tree is apart from its tokens. -/
inductive Shape
  | single
  | list (count : Nat)
  | logic (children : List Shape)

/-- The shape of a leaf with an operand. -/
def Operand.shape : Operand → Shape
  | single _ => .single
  | list tokens => .list tokens.length

namespace Node

mutual

/-- The shape of a tree. -/
def shape : Node → Shape
  | leaf _ _ operand => operand.shape
  | logic _ children => .logic (shapeEach children)

/-- The shapes of a list of trees. -/
def shapeEach : List Node → List Shape
  | [] => []
  | node :: rest => node.shape :: shapeEach rest

end

end Node

namespace Schema

variable {schema : Schema} {context : Context}

/-- The operands of a list are read when each of its values is a scalar. -/
theorem exists_operandTokens_eq_ok_iff {values : List Json} :
    (∃ tokens, schema.operandTokens context values = .ok tokens) ↔
      ∀ value ∈ values, value.isScalar = true := by
  induction values generalizing context with
  | nil => simp [operandTokens]
  | cons value rest ih =>
      simp only [operandTokens_cons_eq_ok_iff, List.forall_mem_cons]
      constructor
      · rintro ⟨_, text, more, readText, readMore, _⟩
        exact ⟨Json.exists_scalarText_eq_ok_iff.mp ⟨text, readText⟩, ih.mp ⟨more, readMore⟩⟩
      · rintro ⟨scalar, scalars⟩
        obtain ⟨text, readText⟩ := Json.exists_scalarText_eq_ok_iff.mpr scalar
        obtain ⟨more, readMore⟩ := ih.mpr scalars
        exact ⟨_, text, more, readText, readMore, rfl⟩

/-- The operands of a list are read one by one from its values. -/
theorem isOperandOf_operandTokens (within : context.Within schema) {values : List Json}
    {tokens : List Token} (read : schema.operandTokens context values = .ok tokens) :
    List.Forall₂ (fun value token => token.IsOperandOf schema value) values tokens := by
  induction values generalizing context tokens with
  | nil =>
      cases read
      exact .nil
  | cons value rest ih =>
      obtain ⟨text, more, readText, readMore, rfl⟩ :=
        (schema.operandTokens_cons_eq_ok_iff context).mp read
      have behind := (within.push (schema.operandToken context text)).push
        (schema.separatorToken (context.push schema (schema.operandToken context text)))
      exact .cons ⟨text, readText, readFrom_operandToken within text⟩ (ih behind readMore)

/-- A value that is no array is read as one operand. -/
theorem arrayOperand_of_notArray (schema : Schema) (context : Context) {value : Json}
    (notArray : ∀ values, value ≠ .array values) :
    schema.arrayOperand context value =
      value.scalarText.map fun text => .single (schema.operandToken context text) := by
  cases value with
  | array values => exact absurd rfl (notArray values)
  | _ => rfl

/-- A value that has a text is one operand by its text. -/
theorem arrayOperand_of_scalarText (schema : Schema) (context : Context) {value : Json}
    {text : String} (read : value.scalarText = .ok text) :
    schema.arrayOperand context value = .ok (.single (schema.operandToken context text)) := by
  have notArray : ∀ values, value ≠ .array values := by
    rintro values rfl
    contradiction
  rw [arrayOperand_of_notArray schema context notArray, read]
  rfl

/-- An array that is not empty is read as a list of operands. -/
theorem arrayOperand_array (schema : Schema) (context : Context) {values : List Json}
    (nonempty : values ≠ []) :
    schema.arrayOperand context (.array values) =
      (schema.operandTokens context values).map .list := by
  cases values with
  | nil => contradiction
  | cons value rest => rfl

/-- A leaf is read by reading its operand behind its field and its operator. -/
theorem arrayLeaf_string (schema : Schema) (field operator : String) (value : Json) :
    let subject := schema.slotToken Context.start field TokenKind.isField
    let behindField := Context.start.push schema subject
    let relation := schema.slotToken behindField operator TokenKind.isOperator
    schema.arrayLeaf (.string field) (.string operator) value =
      (schema.arrayOperand (behindField.push schema relation) value).map
        (.leaf subject relation) := by
  simp only [arrayLeaf, Json.stringContent, bind, Except.bind]
  rfl

/-- A leaf is read from a node, which it mirrors. -/
theorem mirrors_of_arrayLeaf {field operator value : Json} {node : Node}
    (read : schema.arrayLeaf field operator value = .ok node) :
    (Json.array [field, operator, value]).IsNode ∧
      node.Mirrors schema (.array [field, operator, value]) := by
  obtain ⟨fieldText, operatorText, operand, rfl, rfl, readOperand, rfl⟩ :=
    schema.arrayLeaf_eq_ok read
  have atStart := Context.within_start schema
  have names := readFrom_slotToken atStart fieldText TokenKind.isField
  have behindField := atStart.push (schema.slotToken Context.start fieldText TokenKind.isField)
  obtain ⟨relation, relation_eq⟩ := exists_slotToken_isOperator_eq behindField operatorText
  have behindOperator := behindField.push (Token.ofText relation operatorText)
  rw [relation_eq] at readOperand ⊢
  rcases schema.arrayOperand_eq_ok _ readOperand with
    ⟨values, tokens, rfl, nonempty, readValues, rfl⟩ | ⟨text, readText, rfl⟩
  · have scalars := exists_operandTokens_eq_ok_iff.mp ⟨tokens, readValues⟩
    exact ⟨.list fieldText operatorText nonempty scalars,
      .list names (isOperandOf_operandTokens behindOperator readValues)⟩
  · have scalar := Json.exists_scalarText_eq_ok_iff.mp ⟨text, readText⟩
    exact ⟨.single fieldText operatorText scalar,
      .single names ⟨text, readText, readFrom_operandToken behindOperator text⟩⟩

/-- How many operands a list has is decided by its values. -/
theorem map_length_operandTokens (schema other : Schema) (first second : Context)
    (values : List Json) :
    (schema.operandTokens first values).map List.length =
      (other.operandTokens second values).map List.length := by
  induction values generalizing first second with
  | nil => rfl
  | cons value rest ih =>
      rw [operandTokens, operandTokens]
      cases value.scalarText with
      | error cause => rfl
      | ok text =>
          refine map_map_congr (ih _ _) ?_
          intro tokens others same
          simp only [List.length_cons, same]

theorem map_shape_arrayOperand (schema other : Schema) (first second : Context) (value : Json) :
    (schema.arrayOperand first value).map Operand.shape =
      (other.arrayOperand second value).map Operand.shape := by
  by_cases isArray : ∃ values, value = .array values
  · obtain ⟨values, rfl⟩ := isArray
    by_cases nonempty : values = []
    · rw [nonempty]
      rfl
    · rw [arrayOperand_array _ _ nonempty, arrayOperand_array _ _ nonempty]
      refine map_map_congr (map_length_operandTokens schema other first second values) ?_
      intro tokens others same
      rw [Operand.shape, Operand.shape, same]
  · rw [not_exists] at isArray
    rw [arrayOperand_of_notArray _ _ isArray, arrayOperand_of_notArray _ _ isArray]
    cases value.scalarText <;> rfl

theorem map_shape_arrayLeaf (schema other : Schema) (field operator value : Json) :
    (schema.arrayLeaf field operator value).map Node.shape =
      (other.arrayLeaf field operator value).map Node.shape := by
  cases field with
  | string fieldText =>
      cases operator with
      | string operatorText =>
          rw [schema.arrayLeaf_string, other.arrayLeaf_string]
          refine map_map_congr (map_shape_arrayOperand schema other _ _ value) ?_
          intro operand others same
          rw [Node.shape, Node.shape, same]
      | _ => rfl
  | _ => rfl

end Schema

theorem Token.exists_ofConnective_eq (keyword : String) :
    ∃ kind, ofConnective keyword = ofText kind keyword := by
  unfold ofConnective
  split
  · exact ⟨.and, rfl⟩
  · exact ⟨.or, rfl⟩
  · exact ⟨.invalid, rfl⟩

namespace Node

variable {schema : Schema}

/-- A tree is read from a node, which it mirrors. -/
theorem mirrors_of_ofJson {query : Json} {node : Node} (read : ofJson schema query = .ok node) :
    query.IsNode ∧ node.Mirrors schema query := by
  refine ofJson_induction (motive := fun query node => query.IsNode ∧ node.Mirrors schema query)
    ?_ ?_ read
  · exact fun _ _ _ _ readLeaf => Schema.mirrors_of_arrayLeaf readLeaf
  · intro keyword children nodes nonempty each
    obtain ⟨isNodes, mirrored⟩ := (List.forall₂_and_left _ _).mp each
    obtain ⟨kind, connective_eq⟩ := Token.exists_ofConnective_eq keyword
    rw [connective_eq]
    exact ⟨.logic keyword nonempty isNodes, .logic mirrored⟩

/-- Nodes are read one by one. -/
theorem exists_ofJsonEach_eq_ok {queries : List Json}
    (readable : ∀ query ∈ queries, ∃ node, ofJson schema query = .ok node) :
    ∃ nodes, ofJsonEach schema queries = .ok nodes := by
  induction queries with
  | nil => exact ⟨[], by rw [ofJsonEach]⟩
  | cons query rest ih =>
      obtain ⟨⟨node, readFirst⟩, readableRest⟩ := List.forall_mem_cons.mp readable
      obtain ⟨nodes, readRest⟩ := ih readableRest
      exact ⟨node :: nodes, ofJsonEach_cons_eq_ok_iff.mpr ⟨_, _, readFirst, readRest, rfl⟩⟩

/-- A connective is read by reading its children. -/
theorem ofJson_logic (schema : Schema) (keyword : String) {children : List Json}
    (nonempty : children ≠ []) :
    ofJson schema (.array [.string keyword, .array children]) =
      (ofJsonEach schema children).map (.logic (Token.ofConnective keyword)) := by
  cases children with
  | nil => contradiction
  | cons first rest =>
      simp only [ofJson, Json.stringContent, bind, Except.bind]
      rfl

/-- Every node is read to some tree. -/
theorem exists_ofJson_eq_ok {query : Json} (isNode : query.IsNode) :
    ∃ node, ofJson schema query = .ok node := by
  induction isNode with
  | @single field operator value scalar =>
      obtain ⟨text, readText⟩ := Json.exists_scalarText_eq_ok_iff.mpr scalar
      rw [ofJson, schema.arrayLeaf_string, schema.arrayOperand_of_scalarText _ readText]
      exact ⟨_, rfl⟩
  | @list field operator values nonempty scalars =>
      rw [ofJson, schema.arrayLeaf_string, schema.arrayOperand_array _ nonempty]
      obtain ⟨tokens, readValues⟩ := Schema.exists_operandTokens_eq_ok_iff.mpr scalars
      rw [readValues]
      exact ⟨_, rfl⟩
  | logic keyword nonempty _ ih =>
      obtain ⟨nodes, readChildren⟩ := exists_ofJsonEach_eq_ok ih
      rw [ofJson_logic schema keyword nonempty, readChildren]
      exact ⟨_, rfl⟩

mutual

/-- The schema decides neither the fault of an array query nor the shape of its tree. -/
theorem map_shape_ofJson (schema other : Schema) : (query : Json) →
    (ofJson schema query).map shape = (ofJson other query).map shape
  | .array [field, operator, value] => by
      rw [ofJson, ofJson]
      exact schema.map_shape_arrayLeaf other field operator value
  | .array [connective, .array children] => by
      cases connective with
      | string keyword =>
          by_cases nonempty : children = []
          · rw [nonempty, ofJson, ofJson]
          · rw [ofJson_logic schema keyword nonempty, ofJson_logic other keyword nonempty]
            refine map_map_congr (map_shapeEach_ofJsonEach schema other children) ?_
            intro nodes others same
            rw [shape, shape, same]
      | _ =>
          rw [ofJson, ofJson]
          rfl
  | .array [_, .null] | .array [_, .boolean _] | .array [_, .number _] | .array [_, .string _]
  | .array [_, .object _] | .array [] | .array [_] | .array (_ :: _ :: _ :: _ :: _)
  | .null | .boolean _ | .number _ | .string _ | .object _ => by
      simp only [ofJson]

theorem map_shapeEach_ofJsonEach (schema other : Schema) : (queries : List Json) →
    (ofJsonEach schema queries).map shapeEach = (ofJsonEach other queries).map shapeEach
  | [] => by rw [ofJsonEach, ofJsonEach]
  | query :: rest => by
      rw [ofJsonEach, ofJsonEach]
      refine map_bind_congr (map_shape_ofJson schema other query) ?_
      intro node first sameFirst
      refine map_map_congr (map_shapeEach_ofJsonEach schema other rest) ?_
      intro nodes others sameRest
      rw [shapeEach, shapeEach, sameFirst, sameRest]

end

/-- A query is read if and only if it is empty or a node, its tree mirrors it, and under any two
schemas it fails in the same way or is read to trees of the same shape. -/
theorem ofQuery_structure (schema : Schema) (query : Json) :
    ((∃ tree?, ofQuery schema query = .ok tree?) ↔ query = .array [] ∨ query.IsNode) ∧
      (∀ tree?, ofQuery schema query = .ok tree? →
        query = .array [] ∧ tree? = none ∨
          ∃ node, tree? = some node ∧ node.Mirrors schema query) ∧
      ∀ other, (ofQuery schema query).map (Option.map shape) =
        (ofQuery other query).map (Option.map shape) := by
  by_cases isEmpty : query = .array []
  · rw [isEmpty]
    refine ⟨⟨fun _ => Or.inl rfl, fun _ => ⟨none, rfl⟩⟩, ?_, fun _ => rfl⟩
    rintro tree? ⟨⟩
    exact Or.inl ⟨rfl, rfl⟩
  · have read_eq (schema : Schema) : ofQuery schema query = (ofJson schema query).map some :=
      ofQuery.eq_2 schema query isEmpty
    simp only [read_eq, map_eq_ok_iff]
    refine ⟨⟨?_, ?_⟩, ?_, fun other => ?_⟩
    · rintro ⟨_, node, read, _⟩
      exact Or.inr (mirrors_of_ofJson read).1
    · rintro (impossible | isNode)
      · exact absurd impossible isEmpty
      · obtain ⟨node, read⟩ := exists_ofJson_eq_ok isNode
        exact ⟨some node, node, read, rfl⟩
    · rintro _ ⟨node, read, rfl⟩
      exact Or.inr ⟨node, rfl, (mirrors_of_ofJson read).2⟩
    · refine map_map_congr (map_shape_ofJson schema other query) ?_
      intro node others same
      rw [Option.map_some, Option.map_some, same]

end Node

end FilterQuery
