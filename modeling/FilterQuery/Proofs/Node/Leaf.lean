import FilterQuery.Proofs.Node.ArrayForm
import FilterQuery.Proofs.Node.Grammar
import FilterQuery.Proofs.Token.Piece

/-!
# Leaves of whole pieces

The field, the operator and the values of a leaf are pieces that are classified one behind the
other.  When every piece becomes a token that belongs in its slot, the text grammar and the array
grammar both build the leaf of these tokens.  The array grammar accepts no other leaf.
-/

namespace FilterQuery

/-- The texts of a leaf, which has one value or several. -/
structure LeafTexts where
  field : String
  operator : String
  first : String
  others : List String

namespace Schema

variable {schema : Schema} {context : Context}

/-- The further values of a leaf, each with the separator before it. -/
def separatedValues (schema : Schema) : Context → List String → List (Token × Token)
  | _, [] => []
  | context, raw :: others =>
      let value := schema.wholeToken (schema.separate context) raw
      (schema.separatorToken context, value) ::
        separatedValues schema ((schema.separate context).push schema value) others

/-- Every further value is classified right behind its separator. -/
theorem exists_of_mem_separatedValues {others : List String} {pair : Token × Token}
    (member : pair ∈ schema.separatedValues context others) :
    ∃ before, ∃ raw ∈ others, pair.1 = schema.separatorToken before ∧
      pair.2 = schema.wholeToken (schema.separate before) raw := by
  induction others generalizing context with
  | nil => contradiction
  | cons raw others ih =>
      rcases List.mem_cons.mp member with rfl | member
      · exact ⟨context, raw, List.mem_cons_self, rfl, rfl⟩
      · obtain ⟨before, other, inOthers, separator, value⟩ := ih member
        exact ⟨before, other, List.mem_cons_of_mem raw inOthers, separator, value⟩

theorem judged_wholeToken (schema : Schema) (context : Context) (raw : String) :
    Judged schema context (schema.wholeToken context raw) :=
  schema.judged_getD_classify context raw _

/-- A comma becomes a separator where one is allowed, and is refused elsewhere. -/
theorem separatorToken_cases (schema : Schema) (context : Context) :
    (schema.separatorToken context).kind = .comma ∧ context.allowsSeparator = true ∨
      (schema.separatorToken context).isInvalid = true := by
  have same : schema.separatorToken context =
      Token.acceptedIf context.allowsSeparator .comma "," := rfl
  rw [same]
  cases context.allowsSeparator with
  | true => exact Or.inl ⟨rfl, rfl⟩
  | false => exact Or.inr rfl

theorem previous_separate (schema : Schema) (context : Context) :
    (schema.separate context).previous = some (schema.separatorToken context).kind :=
  Context.previous_push schema context (visible_separatorToken context)

/-- Behind a separator a value is only expected where the separator was allowed. -/
theorem allowsSeparator_of_expectsValue
    (expected : (schema.separate context).expectsValue = true) :
    context.allowsSeparator = true := by
  rcases schema.separatorToken_cases context with ⟨_, allowed⟩ | isInvalid
  · exact allowed
  · rw [Context.expectsValue, previous_separate, Token.kind_eq_of_isInvalid isInvalid] at expected
    contradiction

theorem isSeparator_separatorToken (allowed : context.allowsSeparator = true) :
    (schema.separatorToken context).kind.isSeparator = true := by
  have same : schema.separatorToken context =
      Token.acceptedIf context.allowsSeparator .comma "," := rfl
  rw [same, allowed]
  rfl

/-- A piece is not empty. -/
theorem IsPiece.ne_empty {raw : String} (piece : schema.IsPiece raw) : raw ≠ "" := by
  rintro rfl
  rcases piece with ⟨kind, _, found⟩
  exact width_ne_zero_of_match? (findExact?_eq_some_iff.mp found) rfl

/-- A text in a slot has the token of the whole text, if that belongs there. -/
theorem slotToken_of_belongs {raw : String} {belongs : TokenKind → Bool}
    (kept : belongs (schema.wholeToken context raw).kind = true) :
    schema.slotToken context raw belongs = schema.wholeToken context raw := by
  have same : schema.slotToken context raw belongs =
      (schema.wholeToken context raw).inSlot raw belongs := rfl
  rw [same, Token.inSlot, kept, Bool.or_true, if_pos rfl]

/-- A valid token in a slot is that of the whole text. -/
theorem slotToken_of_valid {raw : String} {belongs : TokenKind → Bool}
    (valid : (schema.slotToken context raw belongs).isInvalid = false) :
    schema.slotToken context raw belongs = schema.wholeToken context raw ∧
      belongs (schema.wholeToken context raw).kind = true := by
  change ((schema.wholeToken context raw).inSlot raw belongs).isInvalid = false at valid
  rcases Token.inSlot_cases (schema.wholeToken context raw) raw belongs with isInvalid | kept
  · rw [valid] at isInvalid
    contradiction
  · exact kept

/-- A piece in the place of an operand is put into its slot as a whole. -/
theorem IsPiece.operandToken_eq {raw : String} (piece : schema.IsPiece raw) (context : Context) :
    schema.operandToken context raw = schema.slotToken context raw TokenKind.isValue := by
  obtain ⟨kind, found, _, classified⟩ := piece.classify_eq context
  rw [operandToken, if_neg (by simp [piece.ne_empty]), wholeOperand, slotToken, found]
  simp only [classified, Option.getD_some, Option.bind_some]

/-- A list of values is read as the values behind separators, if all of them are values. -/
theorem operandTokens_of_isValue {others : List String}
    (pieces : ∀ raw ∈ others, schema.IsPiece raw)
    (values : ∀ pair ∈ schema.separatedValues context others, pair.2.kind.isValue = true) :
    schema.operandTokens (schema.separate context) (others.map .string) =
      .ok ((schema.separatedValues context others).map (·.2)) := by
  induction others generalizing context with
  | nil => rfl
  | cons raw others ih =>
      rcases List.forall_mem_cons.mp pieces with ⟨piece, others_pieces⟩
      rcases List.forall_mem_cons.mp values with ⟨value, others_values⟩
      rw [List.map_cons, operandTokens]
      simp only [Json.scalarText, bind, Except.bind, piece.operandToken_eq,
        slotToken_of_belongs value, ih others_pieces others_values]
      rfl

/-- A list of values without an invalid one consists of the values behind separators. -/
theorem isValue_of_operandTokens {others : List String} {tokens : List Token}
    (pieces : ∀ raw ∈ others, schema.IsPiece raw)
    (read : schema.operandTokens (schema.separate context) (others.map .string) = .ok tokens)
    (valid : ∀ token ∈ tokens, token.isInvalid = false) :
    ∀ pair ∈ schema.separatedValues context others, pair.2.kind.isValue = true := by
  induction others generalizing context tokens with
  | nil => simp [separatedValues]
  | cons raw others ih =>
      rcases List.forall_mem_cons.mp pieces with ⟨piece, others_pieces⟩
      rcases (schema.operandTokens_cons_eq_ok_iff _).mp read with ⟨_, more, same, readMore, rfl⟩
      cases same
      rcases List.forall_mem_cons.mp valid with ⟨headValid, moreValid⟩
      rw [piece.operandToken_eq] at headValid readMore
      obtain ⟨head_eq, isValue⟩ := slotToken_of_valid headValid
      rw [head_eq] at readMore
      exact List.forall_mem_cons.mpr ⟨isValue, ih others_pieces readMore moreValid⟩

end Schema

namespace LeafTexts

variable (schema : Schema) (texts : LeafTexts)

/-- The token of the field. -/
def subject : Token :=
  schema.wholeToken Context.start texts.field

def behindField : Context :=
  Context.start.push schema (texts.subject schema)

/-- The token of the operator. -/
def relation : Token :=
  schema.wholeToken (texts.behindField schema) texts.operator

def behindOperator : Context :=
  (texts.behindField schema).push schema (texts.relation schema)

/-- The token of the first value. -/
def value : Token :=
  schema.wholeToken (texts.behindOperator schema) texts.first

def behindValue : Context :=
  (texts.behindOperator schema).push schema (texts.value schema)

/-- The tokens of the other values, each with the separator before it. -/
def pairs : List (Token × Token) :=
  schema.separatedValues (texts.behindValue schema) texts.others

/-- The tokens of the leaf in the text grammar. -/
def tokens : List Token :=
  [texts.subject schema, Token.blank, texts.relation schema, Token.blank, texts.value schema] ++
    (texts.pairs schema).flatMap fun pair => [pair.1, Token.blank, pair.2]

/-- The operand of the leaf: a single value as it is, several as a list. -/
def operand : Operand :=
  (Operand.single (texts.value schema)).extend ((texts.pairs schema).map (·.2))

/-- The operand in the array grammar: a single value as it is, several as a list. -/
def operandJson (texts : LeafTexts) : Json :=
  match texts.others with
  | [] => .string texts.first
  | others => .array (.string texts.first :: others.map .string)

/-- The leaf in the array grammar. -/
def toJson (texts : LeafTexts) : Json :=
  .array [.string texts.field, .string texts.operator, texts.operandJson]

/-- The leaf as a tree of tokens. -/
def node : Node :=
  .leaf (texts.subject schema) (texts.relation schema) (texts.operand schema)

/-- Every text of the leaf is a piece. -/
structure Pieces : Prop where
  field : schema.IsPiece texts.field
  operator : schema.IsPiece texts.operator
  first : schema.IsPiece texts.first
  others : ∀ raw ∈ texts.others, schema.IsPiece raw

/-- Every token of the leaf belongs in its slot. -/
structure Belongs : Prop where
  field : (texts.subject schema).kind.isField = true
  operator : (texts.relation schema).kind.isOperator = true
  first : (texts.value schema).kind.isValue = true
  others : ∀ pair ∈ texts.pairs schema, pair.2.kind.isValue = true

variable {schema texts}

theorem Pieces.previous_behindField (pieces : texts.Pieces schema) :
    (texts.behindField schema).previous = some (texts.subject schema).kind :=
  Context.previous_push schema _ (pieces.field.visible _)

theorem Pieces.previous_behindOperator (pieces : texts.Pieces schema) :
    (texts.behindOperator schema).previous = some (texts.relation schema).kind :=
  Context.previous_push schema _ (pieces.operator.visible _)

theorem Pieces.previous_behindValue (pieces : texts.Pieces schema) :
    (texts.behindValue schema).previous = some (texts.value schema).kind :=
  Context.previous_push schema _ (pieces.first.visible _)

theorem mem_tokens_of_mem_pairs {pair : Token × Token} (member : pair ∈ texts.pairs schema) :
    pair.1 ∈ texts.tokens schema ∧ pair.2 ∈ texts.tokens schema := by
  have inPairs (token : Token) (inPair : token ∈ [pair.1, Token.blank, pair.2]) :
      token ∈ texts.tokens schema :=
    List.mem_append_right _ (List.mem_flatMap.mpr ⟨pair, member, inPair⟩)
  exact ⟨inPairs _ (by simp), inPairs _ (by simp)⟩

/-! ## The array grammar -/

/-- The leaf is read from its array, slot by slot. -/
theorem ofQuery_toJson (schema : Schema) (texts : LeafTexts) :
    Node.ofQuery schema texts.toJson =
      (schema.arrayLeaf (.string texts.field) (.string texts.operator) texts.operandJson).map
        some := by
  rw [toJson, Node.ofQuery, Node.ofJson]
  simp

theorem Belongs.arrayOperand_eq (pieces : texts.Pieces schema) (belongs : texts.Belongs schema) :
    schema.arrayOperand (texts.behindOperator schema) texts.operandJson =
      .ok (texts.operand schema) := by
  have first : schema.operandToken (texts.behindOperator schema) texts.first =
      texts.value schema := by
    rw [pieces.first.operandToken_eq, Schema.slotToken_of_belongs belongs.first]
    rfl
  have others := Schema.operandTokens_of_isValue pieces.others belongs.others
  cases shape : texts.others with
  | nil =>
      simp only [operandJson, operand, pairs, shape, Schema.arrayOperand, Json.scalarText,
        Except.map, first]
      rfl
  | cons second rest =>
      rw [shape] at others
      simp only [operandJson, operand, pairs, shape, Schema.arrayOperand, Schema.operandTokens,
        Json.scalarText, bind, Except.bind, first]
      rw [← behindValue, others]
      rfl

/-- The array grammar builds a leaf whose tokens belong in their slots. -/
theorem Belongs.ofQuery_toJson_eq (pieces : texts.Pieces schema)
    (belongs : texts.Belongs schema) :
    Node.ofQuery schema texts.toJson = .ok (some (texts.node schema)) := by
  have operand := belongs.arrayOperand_eq pieces
  rw [ofQuery_toJson]
  simp only [Schema.arrayLeaf, Json.stringContent, bind, Except.bind]
  rw [Schema.slotToken_of_belongs belongs.field, ← subject, ← behindField,
    Schema.slotToken_of_belongs belongs.operator, ← relation, ← behindOperator, operand]
  rfl

theorem Pieces.isValue_of_arrayOperand {operand : Operand} (pieces : texts.Pieces schema)
    (read : schema.arrayOperand (texts.behindOperator schema) texts.operandJson = .ok operand)
    (valid : ∀ token ∈ operand.tokens, token.isInvalid = false) :
    (texts.value schema).kind.isValue = true ∧
      ∀ pair ∈ texts.pairs schema, pair.2.kind.isValue = true := by
  have first := pieces.first.operandToken_eq (texts.behindOperator schema)
  have others := pieces.others
  unfold operandJson at read
  rw [pairs]
  rcases schema.arrayOperand_eq_ok _ read with
    ⟨values, tokens, several, _, readValues, rfl⟩ | ⟨text, single, rfl⟩
  · split at several
    · contradiction
    · cases several
      rcases (schema.operandTokens_cons_eq_ok_iff _).mp readValues with
        ⟨_, more, same, readMore, rfl⟩
      cases same
      rcases List.forall_mem_cons.mp valid with ⟨firstValid, moreValid⟩
      rw [first] at firstValid readMore
      obtain ⟨first_eq, isValue⟩ := Schema.slotToken_of_valid firstValid
      rw [first_eq, ← value, ← behindValue] at readMore
      exact ⟨isValue, Schema.isValue_of_operandTokens others readMore moreValid⟩
  · split at single
    · next none_left =>
        cases single
        have firstValid := valid _ List.mem_cons_self
        rw [first] at firstValid
        exact ⟨(Schema.slotToken_of_valid firstValid).2,
          by simp [none_left, Schema.separatedValues]⟩
    · contradiction

/-- The array grammar only builds a leaf without invalid tokens if every token belongs in its
slot. -/
theorem Pieces.belongs_of_ofQuery {tree : Node} (pieces : texts.Pieces schema)
    (read : Node.ofQuery schema texts.toJson = .ok (some tree))
    (valid : ∀ place ∈ tree.slots, place.2.isInvalid = false) : texts.Belongs schema := by
  rw [ofQuery_toJson] at read
  cases readLeaf : schema.arrayLeaf (.string texts.field) (.string texts.operator)
      texts.operandJson with
  | error cause => simp [readLeaf, Except.map] at read
  | ok leaf =>
      simp only [readLeaf, Except.map, Except.ok.injEq, Option.some.injEq] at read
      rcases schema.arrayLeaf_eq_ok readLeaf with
        ⟨_, _, operand, fieldText, operatorText, readOperand, leaf_eq⟩
      cases fieldText
      cases operatorText
      rw [← read, leaf_eq] at valid
      simp only [Node.slots, Operand.slots, List.forall_mem_cons, List.forall_mem_map] at valid
      rcases valid with ⟨fieldValid, operatorValid, operandsValid⟩
      obtain ⟨field_eq, isField⟩ := Schema.slotToken_of_valid fieldValid
      rw [field_eq, ← subject, ← behindField] at operatorValid readOperand
      obtain ⟨operator_eq, isOperator⟩ := Schema.slotToken_of_valid operatorValid
      rw [operator_eq, ← relation, ← behindOperator] at readOperand
      obtain ⟨first, others⟩ := pieces.isValue_of_arrayOperand readOperand operandsValid
      exact ⟨isField, isOperator, first, others⟩

/-! ## The text grammar -/

/-- A value is only read behind an operator that takes one. -/
theorem Belongs.isComparer (belongs : texts.Belongs schema) :
    (texts.relation schema).kind.isComparer = true := by
  have judged := schema.judged_wholeToken (texts.behindOperator schema) texts.first
  have takes := (judged.expected_of_isValue belongs.first).2.1
  rw [Context.takesOperand, behindOperator, Context.operator_push, if_pos belongs.operator,
    Option.any_some] at takes
  rcases TokenKind.toOperator_cases belongs.operator with ⟨isComparer, _⟩ | ⟨_, isPresence⟩
  · exact isComparer
  · rw [Operator.isPresence_eq_false takes] at isPresence
    contradiction

/-- A further value is only read behind a separator. -/
theorem Belongs.isSeparator (belongs : texts.Belongs schema) :
    ∀ pair ∈ texts.pairs schema, pair.1.kind.isSeparator = true := by
  intro pair member
  have isValue := belongs.others pair member
  obtain ⟨before, raw, _, separator, value⟩ := Schema.exists_of_mem_separatedValues member
  rw [value] at isValue
  have judged := schema.judged_wholeToken (schema.separate before) raw
  have allowed := Schema.allowsSeparator_of_expectsValue (judged.expected_of_isValue isValue).1
  rw [separator]
  exact Schema.isSeparator_separatorToken allowed

end LeafTexts

theorem visibleTokens_blank (tokens : List Token) :
    visibleTokens (Token.blank :: tokens) = visibleTokens tokens :=
  rfl

/-- Separators and values behind them are the further values of a leaf, with blanks or without. -/
theorem separatedValues_of_pairs {pairs : List (Token × Token)}
    (separators : ∀ pair ∈ pairs, pair.1.kind.isSeparator = true)
    (values : ∀ pair ∈ pairs, pair.2.kind.isValue = true) :
    SeparatedValues (visibleTokens (pairs.flatMap fun pair => [pair.1, Token.blank, pair.2]))
      (pairs.map (·.2)) := by
  induction pairs with
  | nil => exact .nil
  | cons pair pairs ih =>
      obtain ⟨isSeparator, moreSeparators⟩ := List.forall_mem_cons.mp separators
      obtain ⟨isValue, moreValues⟩ := List.forall_mem_cons.mp values
      have separatorVisible := (TokenKind.ordinary_of_isSeparator isSeparator).1.notSpace
      have valueVisible := (TokenKind.ordinary_of_isValue isValue).1.notSpace
      rw [List.flatMap_cons, List.cons_append, List.cons_append, List.cons_append,
        List.nil_append, visibleTokens_cons, if_neg separatorVisible, visibleTokens_blank,
        visibleTokens_cons, if_neg valueVisible]
      exact .cons isSeparator isValue (ih moreSeparators moreValues)

/-- The text grammar builds a leaf whose tokens belong in their slots. -/
theorem LeafTexts.Belongs.ofTokens_eq {schema : Schema} {texts : LeafTexts}
    (belongs : texts.Belongs schema) :
    Node.ofTokens (texts.tokens schema) = .ok (some (texts.node schema)) := by
  have fieldVisible : (texts.subject schema).kind ≠ .space := by
    intro isSpace
    have isField := belongs.field
    rw [isSpace] at isField
    contradiction
  have operatorVisible := (TokenKind.ordinary_of_isOperator belongs.operator).notSpace
  have valueVisible := (TokenKind.ordinary_of_isValue belongs.first).1.notSpace
  have others := separatedValues_of_pairs belongs.isSeparator belongs.others
  have visible : visibleTokens (texts.tokens schema) =
      texts.subject schema :: texts.relation schema :: texts.value schema ::
        visibleTokens ((texts.pairs schema).flatMap fun pair =>
          [pair.1, Token.blank, pair.2]) := by
    rw [tokens]
    simp only [List.cons_append, List.nil_append]
    rw [visibleTokens_cons, if_neg fieldVisible, visibleTokens_blank, visibleTokens_cons,
      if_neg operatorVisible, visibleTokens_blank, visibleTokens_cons, if_neg valueVisible]
  rw [Node.ofTokens_eq_ok_some_iff, visible]
  exact .single (.leaf (.compare belongs.field belongs.isComparer belongs.first others))

end FilterQuery
