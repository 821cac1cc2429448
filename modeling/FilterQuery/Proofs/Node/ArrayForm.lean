import FilterQuery.Node.ArrayForm
import FilterQuery.Proofs.Node.Slot
import Mathlib.Data.List.Forall2

/-!
# Trees of array queries

Reading an array query puts each text into the slot of its position, and a text that was classified
as something else becomes an invalid token there.  So every tree that is read is filled, at any
depth and whatever the texts are.
-/

namespace FilterQuery

namespace Token

variable {schema : Schema} {context : Context} {token : Token} {text : String}
  {belongs : TokenKind → Bool}

/-- A token in a slot is invalid, or it is the token itself and belongs there. -/
theorem inSlot_cases (token : Token) (text : String) (belongs : TokenKind → Bool) :
    (token.inSlot text belongs).isInvalid = true ∨
      token.inSlot text belongs = token ∧ belongs token.kind = true := by
  unfold inSlot
  split
  · next kept =>
      cases isInvalid : token.isInvalid with
      | true => exact Or.inl rfl
      | false =>
          rw [isInvalid, Bool.false_or] at kept
          exact Or.inr ⟨rfl, kept⟩
  · exact Or.inl rfl

theorem judged_inSlot (judged : Judged schema context token) :
    Judged schema context (token.inSlot text belongs) := by
  unfold inSlot
  split
  · exact judged
  · exact judged_invalid schema context text

/-- A valid token in a slot belongs there. -/
theorem inSlot_belongs (valid : (token.inSlot text belongs).isInvalid = false) :
    belongs (token.inSlot text belongs).kind = true := by
  rcases token.inSlot_cases text belongs with isInvalid | ⟨same, kept⟩
  · rw [valid] at isInvalid
    contradiction
  · rw [same]
    exact kept

end Token

theorem Judged.names_of_isField {schema : Schema} {context : Context} {token : Token}
    (judged : Judged schema context token) (isField : token.kind.isField = true) :
    ∃ field, token.Names schema field := by
  rcases judged with isInvalid | accepted
  · rw [Token.kind_eq_of_isInvalid isInvalid] at isField
    contradiction
  · cases accepted with
    | field field expected names => exact ⟨field, names⟩
    | value field expected takes current means =>
        rw [means.1] at isField
        contradiction
    | space shape | openGroup shape | closeGroup shape =>
        rw [shape] at isField
        contradiction
    | operator _ _ _ asks =>
        have isOperator := asks.1
        cases shape : token.kind <;> simp_all [TokenKind.isField, TokenKind.isOperator,
          TokenKind.isComparer, TokenKind.isPresence]
    | logic isLogic =>
        cases shape : token.kind <;> simp_all [TokenKind.isField, TokenKind.isLogic]
    | separator isSeparator =>
        cases shape : token.kind <;> simp_all [TokenKind.isField, TokenKind.isSeparator]

namespace Schema

variable (schema : Schema) (context : Context)

theorem judged_getD_classify (text : String) (kind? : Option TokenKind) :
    Judged schema context
      ((kind?.bind fun kind => schema.classify context kind text).getD (Token.invalid text)) := by
  cases found : kind?.bind fun kind => schema.classify context kind text with
  | none => exact Token.judged_invalid schema context text
  | some token =>
      rcases Option.bind_eq_some_iff.mp found with ⟨kind, _, classified⟩
      exact judged_of_classify classified

theorem judged_slotToken (text : String) (belongs : TokenKind → Bool) :
    Judged schema context (schema.slotToken context text belongs) :=
  Token.judged_inSlot (schema.judged_getD_classify context text _)

/-- The token of a field slot names a field unless it is invalid. -/
theorem fills_fieldSlot (text : String) :
    Slot.field.Fills schema (schema.slotToken context text TokenKind.isField) := by
  cases isInvalid : (schema.slotToken context text TokenKind.isField).isInvalid with
  | true => exact Or.inl isInvalid
  | false =>
      have isField := Token.inSlot_belongs isInvalid
      have judged := schema.judged_slotToken context text TokenKind.isField
      exact Or.inr (judged.names_of_isField isField)

theorem fills_operatorSlot (text : String) :
    Slot.operator.Fills schema (schema.slotToken context text TokenKind.isOperator) := by
  cases isInvalid : (schema.slotToken context text TokenKind.isOperator).isInvalid with
  | true => exact Or.inl isInvalid
  | false => exact Or.inr (Token.inSlot_belongs isInvalid)

theorem fills_operandToken (text : String) :
    Slot.operand.Fills schema (schema.operandToken context text) := by
  unfold operandToken
  split
  · exact Or.inr rfl
  · next =>
      rcases (schema.wholeOperand context text).inSlot_cases text TokenKind.isValue with
        isInvalid | ⟨same, kept⟩
      · exact Or.inl isInvalid
      · rw [same]
        exact Or.inr kept

/-- A list of operands is read one value at a time, each behind a separator but the first. -/
theorem operandTokens_cons_eq_ok_iff {value : Json} {rest : List Json} {tokens : List Token} :
    schema.operandTokens context (value :: rest) = .ok tokens ↔
      ∃ text more, value.scalarText = .ok text ∧
        schema.operandTokens
          (schema.separate (context.push schema (schema.operandToken context text))) rest =
            .ok more ∧
        tokens = schema.operandToken context text :: more := by
  rw [operandTokens]
  cases value.scalarText with
  | error cause => simp [bind, Except.bind]
  | ok text =>
      simp only [bind, Except.bind, Except.ok.injEq, exists_and_left, exists_eq_left']
      cases schema.operandTokens
          (schema.separate (context.push schema (schema.operandToken context text))) rest with
      | error cause => simp
      | ok more => simp [pure, Except.pure, eq_comm]

theorem fills_of_operandTokens {values : List Json} {tokens : List Token}
    (read : schema.operandTokens context values = .ok tokens) :
    ∀ token ∈ tokens, Slot.operand.Fills schema token := by
  induction values generalizing context tokens with
  | nil =>
      cases read
      simp
  | cons value rest ih =>
      rcases (schema.operandTokens_cons_eq_ok_iff context).mp read with
        ⟨text, more, _, readRest, rfl⟩
      intro token member
      rcases List.mem_cons.mp member with rfl | member
      · exact schema.fills_operandToken context text
      · exact ih _ readRest token member

/-- The operand of a leaf is a list of values that is not empty, or a single value. -/
theorem arrayOperand_eq_ok {value : Json} {operand : Operand}
    (read : schema.arrayOperand context value = .ok operand) :
    (∃ values tokens, value = .array values ∧ values ≠ [] ∧
        schema.operandTokens context values = .ok tokens ∧ operand = .list tokens) ∨
      ∃ text, value.scalarText = .ok text ∧
        operand = .single (schema.operandToken context text) := by
  unfold arrayOperand at read
  split at read
  · contradiction
  · next values nonempty =>
      cases readValues : schema.operandTokens context values with
      | error cause => simp [readValues, Except.map] at read
      | ok tokens =>
          simp only [readValues, Except.map, Except.ok.injEq] at read
          exact Or.inl ⟨values, tokens, rfl, nonempty, readValues, read.symm⟩
  · cases readText : value.scalarText with
    | error cause => simp [readText, Except.map] at read
    | ok text =>
        simp only [readText, Except.map, Except.ok.injEq] at read
        exact Or.inr ⟨text, rfl, read.symm⟩

theorem fills_of_arrayOperand {value : Json} {operand : Operand}
    (read : schema.arrayOperand context value = .ok operand) :
    ∀ token ∈ operand.tokens, Slot.operand.Fills schema token := by
  rcases schema.arrayOperand_eq_ok context read with
    ⟨values, tokens, _, _, readValues, rfl⟩ | ⟨text, _, rfl⟩
  · exact schema.fills_of_operandTokens context readValues
  · intro token member
    rw [List.mem_singleton.mp member]
    exact schema.fills_operandToken context text

/-- A leaf is read from two strings and an operand, in that order. -/
theorem arrayLeaf_eq_ok {field operator value : Json} {node : Node}
    (read : schema.arrayLeaf field operator value = .ok node) :
    ∃ fieldText operatorText operand, field = .string fieldText ∧ operator = .string operatorText ∧
      let subject := schema.slotToken Context.start fieldText TokenKind.isField
      let relation :=
        schema.slotToken (Context.start.push schema subject) operatorText TokenKind.isOperator
      schema.arrayOperand ((Context.start.push schema subject).push schema relation) value =
          .ok operand ∧
        node = .leaf subject relation operand := by
  cases field with
  | string fieldText =>
      cases operator with
      | string operatorText =>
          simp only [arrayLeaf, Json.stringContent, bind, Except.bind] at read
          split at read
          · contradiction
          · next operand readOperand =>
              cases read
              exact ⟨fieldText, operatorText, operand, rfl, rfl, readOperand, rfl⟩
      | _ => contradiction
  | _ => contradiction

theorem filled_of_arrayLeaf {field operator value : Json} {node : Node}
    (read : schema.arrayLeaf field operator value = .ok node) : node.Filled schema := by
  obtain ⟨fieldText, operatorText, operand, _, _, readOperand, rfl⟩ := schema.arrayLeaf_eq_ok read
  intro place member
  simp only [Node.slots, Operand.slots, List.mem_cons, List.mem_map] at member
  rcases member with rfl | rfl | ⟨token, member, rfl⟩
  · exact schema.fills_fieldSlot Context.start fieldText
  · exact schema.fills_operatorSlot _ operatorText
  · exact schema.fills_of_arrayOperand _ readOperand token member

end Schema

theorem Token.fills_ofConnective (schema : Schema) (keyword : String) :
    Slot.connective.Fills schema (ofConnective keyword) := by
  unfold ofConnective
  split
  · exact Or.inr rfl
  · exact Or.inr rfl
  · exact Or.inl rfl

namespace Node

/-- A tree is read from an array of three elements as a leaf, or from an array of two as a
connective with children. -/
theorem ofJson_eq_ok {schema : Schema} {query : Json} {node : Node}
    (read : ofJson schema query = .ok node) :
    (∃ field operator value, query = .array [field, operator, value] ∧
        schema.arrayLeaf field operator value = .ok node) ∨
      ∃ keyword children nodes, query = .array [.string keyword, .array children] ∧
        children ≠ [] ∧ ofJsonEach schema children = .ok nodes ∧
        node = .logic (Token.ofConnective keyword) nodes := by
  unfold ofJson at read
  split at read
  · next field operator value => exact Or.inl ⟨field, operator, value, rfl, read⟩
  · next connective children =>
      cases connective with
      | string keyword =>
          simp only [Json.stringContent, bind, Except.bind] at read
          split at read
          · contradiction
          · next first rest =>
              split at read
              · contradiction
              · next nodes readChildren =>
                  cases read
                  exact Or.inr ⟨keyword, first :: rest, nodes, rfl, List.cons_ne_nil first rest,
                    readChildren, rfl⟩
          · contradiction
      | _ => contradiction
  · contradiction
  · contradiction

/-- The trees of a list of values are read one by one. -/
theorem ofJsonEach_cons_eq_ok_iff {schema : Schema} {query : Json} {rest : List Json}
    {nodes : List Node} :
    ofJsonEach schema (query :: rest) = .ok nodes ↔
      ∃ node more, ofJson schema query = .ok node ∧ ofJsonEach schema rest = .ok more ∧
        nodes = node :: more := by
  rw [ofJsonEach]
  cases ofJson schema query with
  | error cause => simp [bind, Except.bind]
  | ok node =>
      cases ofJsonEach schema rest with
      | error cause => simp [bind, Except.bind]
      | ok more => simp [bind, Except.bind, pure, Except.pure, eq_comm]

mutual

/-- What holds of every leaf, and of a connective when it holds of the children, holds of every tree
that is read. -/
theorem ofJson_induction {schema : Schema} {motive : Json → Node → Prop}
    (leaf : ∀ field operator value node, schema.arrayLeaf field operator value = .ok node →
      motive (.array [field, operator, value]) node)
    (logic : ∀ keyword children nodes, children ≠ [] → List.Forall₂ motive children nodes →
      motive (.array [.string keyword, .array children])
        (.logic (Token.ofConnective keyword) nodes))
    {query : Json} {node : Node} (read : ofJson schema query = .ok node) : motive query node := by
  rcases ofJson_eq_ok read with ⟨field, operator, value, rfl, readLeaf⟩ |
    ⟨keyword, children, nodes, rfl, nonempty, readChildren, rfl⟩
  · exact leaf field operator value node readLeaf
  · exact logic keyword children nodes nonempty (ofJsonEach_induction leaf logic readChildren)

theorem ofJsonEach_induction {schema : Schema} {motive : Json → Node → Prop}
    (leaf : ∀ field operator value node, schema.arrayLeaf field operator value = .ok node →
      motive (.array [field, operator, value]) node)
    (logic : ∀ keyword children nodes, children ≠ [] → List.Forall₂ motive children nodes →
      motive (.array [.string keyword, .array children])
        (.logic (Token.ofConnective keyword) nodes))
    {queries : List Json} {nodes : List Node} (read : ofJsonEach schema queries = .ok nodes) :
    List.Forall₂ motive queries nodes := by
  cases queries with
  | nil =>
      cases read
      exact .nil
  | cons query rest =>
      obtain ⟨node, more, readFirst, readRest, rfl⟩ := ofJsonEach_cons_eq_ok_iff.mp read
      exact .cons (ofJson_induction leaf logic readFirst) (ofJsonEach_induction leaf logic readRest)

end

/-- What holds of every second one of two related lists. -/
theorem forall_mem_of_forall₂ {α β : Type} {holds : β → Prop} {queries : List α} {nodes : List β}
    (each : List.Forall₂ (fun _ node => holds node) queries nodes) : ∀ node ∈ nodes, holds node := by
  induction each with
  | nil => simp
  | cons first _ ih => exact List.forall_mem_cons.mpr ⟨first, ih⟩

/-- Every tree of an array query is filled. -/
theorem filled_of_ofJson {schema : Schema} {query : Json} {node : Node}
    (read : ofJson schema query = .ok node) : node.Filled schema := by
  refine ofJson_induction (motive := fun _ node => node.Filled schema) ?_ ?_ read
  · exact fun _ _ _ _ readLeaf => schema.filled_of_arrayLeaf readLeaf
  · intro keyword children nodes _ each place member
    rcases List.mem_cons.mp member with rfl | member
    · exact Token.fills_ofConnective schema keyword
    · obtain ⟨child, inNodes, inSlots⟩ := mem_slotsAmong_iff.mp member
      exact forall_mem_of_forall₂ each child inNodes place inSlots

/-- A query has a tree when it is read to the tree as a value. -/
theorem ofQuery_eq_ok_some_iff {schema : Schema} {query : Json} {node : Node} :
    ofQuery schema query = .ok (some node) ↔ ofJson schema query = .ok node := by
  unfold ofQuery
  split
  · simp [ofJson]
  · cases ofJson schema query <;> simp [Except.map]

theorem filled_of_ofQuery {schema : Schema} {query : Json} {node : Node}
    (read : ofQuery schema query = .ok (some node)) : node.Filled schema :=
  filled_of_ofJson (ofQuery_eq_ok_some_iff.mp read)

end Node

end FilterQuery
