import FilterQuery.Proofs.Expression.WellTyped
import FilterQuery.Proofs.Node.ArrayOrigin

/-!
# Leaves as they are written

The leaves of a query are written as texts, and each of them is compiled to one condition.  What a
leaf was written as is kept here beside its tokens and its condition, so that a condition can be
traced back to the text of its field and the texts of its operands.
-/

namespace FilterQuery

/-- The texts of a leaf of a query. -/
structure WrittenLeaf where
  field : String
  operands : List String
  /-- Whether the operands are written as a list. -/
  listed : Bool
  deriving DecidableEq

namespace Json

/-- The texts of an operand, one by one. -/
def operandTexts : Json → List String
  | array values => values.filterMap (·.scalarText.toOption)
  | value => value.scalarText.toOption.toList

/-- Whether a value is an array. -/
def isArray : Json → Bool
  | array _ => true
  | _ => false

mutual

/-- The leaves of an array query in reading order. -/
def writtenLeaves : Json → List WrittenLeaf
  | array [string field, _, operand] => [⟨field, operand.operandTexts, operand.isArray⟩]
  | array [_, array children] => writtenLeavesAmong children
  | _ => []

/-- The leaves of a list of array queries. -/
def writtenLeavesAmong : List Json → List WrittenLeaf
  | [] => []
  | query :: rest => query.writtenLeaves ++ writtenLeavesAmong rest

end

end Json

/-- A leaf is read from texts when its field is the one that the first text names, and its operands
are what the field that its token names takes the other texts for. -/
structure Leaf.ReadFrom (schema : Schema) (written : WrittenLeaf) (leaf : Leaf) : Prop where
  subject : ∃ named, schema.field? written.field = some named ∧
    leaf.subject = .ofText .field named.name
  /-- An operator that takes no operand has only empty ones. -/
  absent : leaf.relation.kind.toOperator.isPresence = true → ∀ text ∈ written.operands, text = ""
  means : leaf.relation.kind.toOperator.isComparer = true →
    ∀ field, leaf.subject.Names schema field →
      List.Forall₂ (fun text token => field.operand? text = some token.value) written.operands
        leaf.operand.tokens
  listed : written.listed = true ↔ ∃ tokens, leaf.operand = .list tokens

/-- A token names only one field. -/
theorem Token.Names.unique {schema : Schema} {token : Token} {field other : Field}
    (names : token.Names schema field) (otherNames : token.Names schema other) : field = other :=
  Except.ok.inj (names.toField_eq.symm.trans otherNames.toField_eq)

/-! ## Array queries -/

namespace Schema

variable {schema : Schema} {context : Context} {field : Field} {operator : Operator}

/-- The operands of a list are read from its texts. -/
theorem operands_of_operandTokens (inLeaf : context.InLeaf field operator) {values : List Json}
    {tokens : List Token} (read : schema.operandTokens context values = .ok tokens)
    (valid : ∀ token ∈ tokens, token.isInvalid = false) :
    (operator.isPresence = true →
        ∀ text ∈ values.filterMap (·.scalarText.toOption), text = "") ∧
      (operator.isComparer = true →
        List.Forall₂ (fun text token => field.operand? text = some token.value)
          (values.filterMap (·.scalarText.toOption)) tokens) := by
  induction values generalizing context tokens with
  | nil =>
      cases read
      simp
  | cons value rest ih =>
      obtain ⟨text, more, readText, readMore, rfl⟩ :=
        (schema.operandTokens_cons_eq_ok_iff context).mp read
      obtain ⟨firstValid, moreValid⟩ := List.forall_mem_cons.mp valid
      have isValue := (takes_operandToken inLeaf firstValid).1.isValue
      obtain ⟨absent, means⟩ := ih (inLeaf.push_value schema isValue).separate readMore moreValid
      have texts : (value :: rest).filterMap (·.scalarText.toOption) =
          text :: rest.filterMap (·.scalarText.toOption) := by
        rw [List.filterMap_cons, readText]
        rfl
      rw [texts]
      constructor
      · intro isPresence
        exact List.forall_mem_cons.mpr
          ⟨eq_empty_of_operandToken inLeaf isPresence firstValid, absent isPresence⟩
      · intro isComparer
        exact .cons (operand?_of_operandToken inLeaf isComparer firstValid) (means isComparer)

/-- An operand is read from its texts, and it is a list exactly if it is written as one. -/
theorem operands_of_arrayOperand (inLeaf : context.InLeaf field operator) {value : Json}
    {operand : Operand} (read : schema.arrayOperand context value = .ok operand)
    (valid : ∀ token ∈ operand.tokens, token.isInvalid = false) :
    (operator.isPresence = true → ∀ text ∈ value.operandTexts, text = "") ∧
      (operator.isComparer = true →
        List.Forall₂ (fun text token => field.operand? text = some token.value)
          value.operandTexts operand.tokens) ∧
      (value.isArray = true ↔ ∃ tokens, operand = .list tokens) := by
  rcases schema.arrayOperand_eq_ok context read with
    ⟨values, tokens, rfl, _, readValues, rfl⟩ | ⟨text, readText, rfl⟩
  · obtain ⟨absent, means⟩ := operands_of_operandTokens inLeaf readValues valid
    exact ⟨absent, means, fun _ => ⟨tokens, rfl⟩, fun _ => rfl⟩
  · have firstValid := valid _ List.mem_cons_self
    have texts : value.operandTexts = [text] ∧ value.isArray = false := by
      cases value with
      | array _ | object _ => contradiction
      | _ =>
          cases readText
          exact ⟨rfl, rfl⟩
    rw [texts.1, texts.2]
    refine ⟨?_, ?_, by simp⟩
    · intro isPresence
      exact List.forall_mem_singleton.mpr (eq_empty_of_operandToken inLeaf isPresence firstValid)
    · intro isComparer
      exact .cons (operand?_of_operandToken inLeaf isComparer firstValid) .nil

/-- A valid leaf of an array query is read from its texts. -/
theorem readFrom_of_arrayLeaf {subject relation value : Json} {node : Node}
    (read : schema.arrayLeaf subject relation value = .ok node)
    (valid : ∀ place ∈ node.slots, place.2.isInvalid = false) :
    List.Forall₂ (Leaf.ReadFrom schema) (Json.array [subject, relation, value]).writtenLeaves
      node.leaves := by
  obtain ⟨fieldText, operatorText, operand, rfl, rfl, readOperand, rfl⟩ :=
    schema.arrayLeaf_eq_ok read
  simp only [Node.slots, Operand.slots, List.forall_mem_cons, List.forall_mem_map] at valid
  obtain ⟨fieldValid, operatorValid, operandValid⟩ := valid
  obtain ⟨named, field, found, _, names⟩ := exists_names_slotToken fieldValid
  have subject_eq : schema.slotToken Context.start fieldText TokenKind.isField =
      .ofText .field named.name := by
    rw [slotToken_isField fieldValid, fieldToken, found]
  have isOperator := Token.inSlot_belongs operatorValid
  have current := Context.field_push_of_names schema Context.start names
  have inLeaf := Context.inLeaf_of_operator schema current isOperator
  obtain ⟨absent, means, listed⟩ := operands_of_arrayOperand inLeaf readOperand operandValid
  refine .cons ⟨⟨named, found, subject_eq⟩, absent, ?_, listed⟩ .nil
  intro isComparer other otherNames
  cases names.unique otherNames
  exact means isComparer

end Schema

namespace Node

variable {schema : Schema}

/-- The leaves of trees that are read from their texts are read from them one after another. -/
theorem readFrom_leavesAmong {queries : List Json} {nodes : List Node}
    (each : List.Forall₂ (fun query node => (∀ place ∈ node.slots, place.2.isInvalid = false) →
      List.Forall₂ (Leaf.ReadFrom schema) query.writtenLeaves node.leaves) queries nodes)
    (valid : ∀ place ∈ slotsAmong nodes, place.2.isInvalid = false) :
    List.Forall₂ (Leaf.ReadFrom schema) (Json.writtenLeavesAmong queries) (leavesAmong nodes) := by
  induction each with
  | nil => exact .nil
  | cons first _ ih =>
      obtain ⟨firstValid, restValid⟩ := List.forall_mem_append.mp valid
      exact List.rel_append (first firstValid) (ih restValid)

/-- The leaves of an array query without invalid tokens are read from its texts, in order. -/
theorem readFrom_of_ofJson {query : Json} {node : Node} (read : ofJson schema query = .ok node) :
    (∀ place ∈ node.slots, place.2.isInvalid = false) →
      List.Forall₂ (Leaf.ReadFrom schema) query.writtenLeaves node.leaves := by
  refine ofJson_induction (motive := fun query node =>
    (∀ place ∈ node.slots, place.2.isInvalid = false) →
      List.Forall₂ (Leaf.ReadFrom schema) query.writtenLeaves node.leaves) ?_ ?_ read
  · exact fun _ _ _ _ readLeaf => Schema.readFrom_of_arrayLeaf readLeaf
  · intro keyword children nodes _ each valid
    exact readFrom_leavesAmong each (List.forall_mem_cons.mp valid).2

end Node

/-! ## Conditions of leaves -/

namespace Expression

mutual

/-- The conditions of an expression in reading order. -/
def conditions : Expression → List Condition
  | condition test => [test]
  | logic _ children => conditionsAmong children

/-- The conditions of a list of expressions. -/
def conditionsAmong : List Expression → List Condition
  | [] => []
  | child :: rest => child.conditions ++ conditionsAmong rest

end

end Expression

/-- A leaf compiles to a condition on a field when the field is the one that its token names, and
its other tokens fit the field. -/
structure Leaf.CompilesTo (schema : Schema) (leaf : Leaf) (field : Field) (test : Condition) :
    Prop where
  names : leaf.subject.Names schema field
  asks : leaf.relation.Asks field
  fits : leaf.operand.Fits field leaf.relation.kind.toOperator
  test_eq : test =
    ⟨field.type, field.name, leaf.relation.kind.toOperator, leaf.operand.value⟩

namespace Expression

variable {schema : Schema}

/-- The conditions of a list of trees are those of its leaves if that is so for each tree. -/
theorem compilesTo_of_ofNodes {nodes : List Node} {expressions : List Expression}
    (compiled : ofNodes schema nodes = .ok expressions)
    (each : ∀ node ∈ nodes, ∀ expression, ofNode schema node = .ok expression →
      List.Forall₂ (fun leaf test => ∃ field, Leaf.CompilesTo schema leaf field test)
        node.leaves expression.conditions) :
    List.Forall₂ (fun leaf test => ∃ field, Leaf.CompilesTo schema leaf field test)
      (Node.leavesAmong nodes) (conditionsAmong expressions) := by
  induction nodes generalizing expressions with
  | nil =>
      cases compiled
      exact .nil
  | cons node rest ih =>
      obtain ⟨first, others, compiledFirst, compiledRest, rfl⟩ :=
        ofNodes_cons_eq_ok_iff.mp compiled
      obtain ⟨ofFirst, ofRest⟩ := List.forall_mem_cons.mp each
      exact List.rel_append (ofFirst first compiledFirst) (ih compiledRest ofRest)

/-- The conditions of a typed tree are those of its leaves, in order. -/
theorem compilesTo_of_typed {node : Node} (typed : node.Typed schema) {expression : Expression}
    (compiled : ofNode schema node = .ok expression) :
    List.Forall₂ (fun leaf test => ∃ field, Leaf.CompilesTo schema leaf field test)
      node.leaves expression.conditions := by
  induction typed generalizing expression with
  | leaf field names asks fits =>
      rw [ofNode, Condition.ofLeaf_eq names asks.1 (fits.isValue asks)] at compiled
      cases compiled
      exact .cons ⟨field, names, asks, fits, rfl⟩ .nil
  | logic isLogic nonempty typed ih =>
      obtain ⟨parts, compiledParts, rfl⟩ := ofNode_logic_eq_ok isLogic compiled
      exact compilesTo_of_ofNodes compiledParts fun child member expression compiledChild =>
        ih child member compiledChild

end Expression

/-! ## Conditions of texts -/

/-- A condition on a field means what a leaf is written as when every operand is what the field takes
its text for. -/
structure WrittenLeaf.Means (written : WrittenLeaf) (field : Field) (test : Condition) : Prop where
  typed : test.Typed field
  compares : test.operator.isComparer = true →
    List.Forall₂ (fun text value => field.operand? text = some value) written.operands
      test.value.operands
  absent : test.operator.isPresence = true → ∀ text ∈ written.operands, text = ""
  listed : written.listed = true ↔ ∃ values, test.value = .list values

/-- A leaf compiles to a condition on the field to which the name of the field that its text names
leads. -/
def WrittenLeaf.CompilesTo (schema : Schema) (written : WrittenLeaf) (test : Condition) : Prop :=
  ∃ named field, schema.field? written.field = some named ∧
    schema.field? named.name = some field ∧ written.Means field test

theorem forall₂_comp {α β γ : Type} {r : α → β → Prop} {s : β → γ → Prop} {t : α → γ → Prop}
    (comp : ∀ a b c, r a b → s b c → t a c) {as : List α} {bs : List β} {cs : List γ}
    (first : List.Forall₂ r as bs) (second : List.Forall₂ s bs cs) : List.Forall₂ t as cs := by
  induction first generalizing cs with
  | nil =>
      cases second
      exact .nil
  | cons related _ ih =>
      cases second with
      | cons relatedNext others => exact .cons (comp _ _ _ related relatedNext) (ih others)

/-- What a leaf is compiled to means what the leaf was written as. -/
theorem Leaf.ReadFrom.compilesTo {schema : Schema} {written : WrittenLeaf} {leaf : Leaf}
    {field : Field} {test : Condition} (readFrom : leaf.ReadFrom schema written)
    (compiles : leaf.CompilesTo schema field test) : written.CompilesTo schema test := by
  obtain ⟨names, asks, fits, rfl⟩ := compiles
  obtain ⟨named, found, subject_eq⟩ := readFrom.subject
  have known := (TokenKind.kind_toOperator asks.1).2
  have leads : schema.field? named.name = some field := by
    obtain ⟨name, same, leads⟩ := names
    rw [subject_eq] at same
    cases same
    exact leads
  refine ⟨named, field, found, leads, Condition.typed_of_fits asks fits, ?_, readFrom.absent, ?_⟩
  · intro isComparer
    rw [fits.operands_value known, List.forall₂_map_right_iff]
    exact readFrom.means isComparer field names
  · rw [readFrom.listed]
    constructor
    · rintro ⟨tokens, operand_eq⟩
      rw [operand_eq]
      exact ⟨_, rfl⟩
    · rintro ⟨values, isList⟩
      obtain ⟨tokens, operand_eq, _⟩ := fits.eq_list known isList
      exact ⟨tokens, operand_eq⟩

/-- What a tree is compiled to means what its leaves were written as, one by one. -/
theorem Expression.compilesTo_of_readFrom {schema : Schema} {written : List WrittenLeaf}
    {node : Node} {expression : Expression}
    (readFrom : List.Forall₂ (Leaf.ReadFrom schema) written node.leaves)
    (typed : node.Typed schema) (compiled : ofNode schema node = .ok expression) :
    List.Forall₂ (WrittenLeaf.CompilesTo schema) written expression.conditions :=
  forall₂_comp (fun _ _ _ ofLeaf ⟨_, compiles⟩ => ofLeaf.compilesTo compiles) readFrom
    (compilesTo_of_typed typed compiled)

namespace Source

variable {schema : Schema} {source : Source} {query : Json} {node : Node}
  {expression : Expression}

/-- The value of an array query, if it is sound JSON. -/
def json? : Source → Option Json
  | written .text _ => none
  | written .array query => (Json.parse query).toOption
  | value query => some query

theorem tree_of_json? (isJson : source.json? = some query) :
    source.tree schema = (Node.ofQuery schema query).mapError .malformed := by
  cases source with
  | written grammar text =>
      cases grammar with
      | text => contradiction
      | array =>
          rw [tree, Schema.readArrayQuery]
          cases parsed : Json.parse text with
          | error error =>
              rw [json?, parsed] at isJson
              contradiction
          | ok value =>
              rw [json?, parsed] at isJson
              cases isJson
              rfl
  | value _ =>
      cases isJson
      rfl

/-- The leaves of an array query that compiles are read from its texts. -/
theorem readFrom_of_json? (isJson : source.json? = some query)
    (read : source.tree schema = .ok (some node)) (typed : node.Typed schema) :
    List.Forall₂ (Leaf.ReadFrom schema) query.writtenLeaves node.leaves := by
  rw [tree_of_json? isJson, mapError_eq_ok_iff, Node.ofQuery_eq_ok_some_iff] at read
  exact Node.readFrom_of_ofJson read (isInvalid_of_firstFault? typed.firstFault?_eq_none)

end Source

end FilterQuery
