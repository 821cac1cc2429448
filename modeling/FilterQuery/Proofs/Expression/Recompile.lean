import FilterQuery.Proofs.Expression.WellTyped
import FilterQuery.Proofs.Json.PlainNumber
import FilterQuery.Proofs.Node.ArrayOrigin

/-!
# Compiling again

The array query of a compiled expression goes through labels and lookups a second time.  A name that
is the label of another field, or an operand that is named like a lookup, may mean something else
then, and no error tells of it.  Where labels and lookups hold no second meaning for what the
expression says, compiling again yields the same expression or an error: neither the quotes, nor the
form of numbers, nor what a text is taken for can change an operand.
-/

namespace FilterQuery

open Lexicon

/-- A field keeps a value when its lookups leave the text alone that is written for the value, or
lead from that text to the value again. -/
def Field.Keeps (field : Field) (value : Value) : Prop :=
  ∀ text, value.toJson.scalarText = .ok text → field.substitute text ≠ text →
    ∀ meant, field.operand? text = some meant → meant = value

/-- A schema keeps a condition when the name of its field leads to a field with the same name and
type, which keeps the operands. -/
def Schema.Keeps (schema : Schema) (test : Condition) : Prop :=
  ∀ named field, schema.field? test.field = some named → schema.field? named.name = some field →
    field.name = test.field ∧ field.type = test.type ∧
      (test.operator.isComparer = true → ∀ value ∈ test.value.operands, field.Keeps value)

/-- The text that is written for a value is read as the value, if at all. -/
theorem ValueType.eq_of_cast?_scalarText {type : ValueType} {raw text : String}
    {value meant : Value} (read : type.cast? raw = some value)
    (written : value.toJson.scalarText = .ok text) (readAgain : type.cast? text = some meant) :
    meant = value := by
  by_cases isNumber : type = .number
  · subst isNumber
    rcases Option.map_eq_some_iff.mp read with ⟨amount, _, rfl⟩
    rcases Option.map_eq_some_iff.mp readAgain with ⟨again, readNumber, rfl⟩
    cases amount with
    | finite negative x =>
        cases written
        rw [String.toList_ofList] at readNumber
        by_cases plain : (JsonNumber.float negative x).IsPlain
        · rw [(JsonNumber.toChars_of_isPlain plain).2] at readNumber
          cases readNumber
          rfl
        · rw [JsonNumber.ofPlainChars?_toChars_eq_none plain] at readNumber
          contradiction
    | nan | infinite _ =>
        cases written
        contradiction
  · have reads : type.cast? value.written = some value := by
      by_cases isString : type = .string
      · subst isString
        cases read
        exact (Value.writtenAs_text ⟨[]⟩ (stripQuotes raw)).read
      · rw [Value.written_eq_display read isString]
        exact ValueType.cast?_display read isString isNumber
    rw [Value.scalarText_toJson read isNumber] at written
    cases written
    rw [reads] at readAgain
    exact (Option.some.inj readAgain).symm

/-- What a field takes the text of a value for is the value, if the field keeps it. -/
theorem Field.Keeps.eq_of_operand? {field : Field} {raw text : String} {value meant : Value}
    (keeps : field.Keeps value) (read : field.type.cast? raw = some value)
    (written : value.toJson.scalarText = .ok text) (readAgain : field.operand? text = some meant) :
    meant = value := by
  by_cases same : field.substitute text = text
  · rw [Field.operand?, same] at readAgain
    exact ValueType.eq_of_cast?_scalarText read written readAgain
  · exact keeps text written same meant readAgain

/-! ## Tokens -/

namespace Schema

variable {schema : Schema} {context : Context} {field : Field} {operator : Operator}

/-- A valid token in the slot of an operator is of the operator that its name stands for. -/
theorem kind_slotToken_operatorName (known : operator ≠ .unknown)
    (valid : (schema.slotToken context operator.name TokenKind.isOperator).isInvalid = false) :
    (schema.slotToken context operator.name TokenKind.isOperator).kind = operator.kind := by
  cases allowed : context.allows operator with
  | true =>
      rw [slotToken_operator known (schema.findExact?_operatorName known) allowed]
      rfl
  | false =>
      rw [slotToken, schema.findExact?_operatorName known, Option.bind_some,
        classify_operator known, allowed] at valid
      contradiction

end Schema

/-! ## Operands -/

/-- What makes a value of an operand be read as itself: it stands for a missing operand, or it is a
value of the field that the field keeps. -/
structure Value.KeptUnder (field : Field) (operator : Operator) (value : Value) : Prop where
  absent : operator.isPresence = true → value = .emptyText
  means : operator.isComparer = true → ∃ raw, field.type.cast? raw = some value
  keeps : operator.isComparer = true → field.Keeps value

namespace Schema

variable {schema : Schema} {context : Context} {field : Field} {operator : Operator}

/-- A valid operand that was written for a value carries the value. -/
theorem value_operandToken (inLeaf : context.InLeaf field operator) {value : Value} {text : String}
    (kept : value.KeptUnder field operator) (written : value.toJson.scalarText = .ok text)
    (valid : (schema.operandToken context text).isInvalid = false) :
    (schema.operandToken context text).value = value := by
  rcases (takes_operandToken inLeaf valid).1 with ⟨isPresence, absent⟩ | ⟨isComparer, _⟩
  · rw [absent, kept.absent isPresence]
    rfl
  · obtain ⟨raw, read⟩ := kept.means isComparer
    exact (kept.keeps isComparer).eq_of_operand? read written
      (operand?_of_operandToken inLeaf isComparer valid)

/-- Valid operands that were written for the values of a list carry the values. -/
theorem map_value_operandTokens (inLeaf : context.InLeaf field operator) {values : List Value}
    (kept : ∀ value ∈ values, value.KeptUnder field operator) {tokens : List Token}
    (read : schema.operandTokens context (values.map Value.toJson) = .ok tokens)
    (valid : ∀ token ∈ tokens, token.isInvalid = false) : tokens.map Token.value = values := by
  induction values generalizing context tokens with
  | nil =>
      cases read
      rfl
  | cons value rest ih =>
      rw [List.map_cons] at read
      rcases (schema.operandTokens_cons_eq_ok_iff context).mp read with
        ⟨text, more, written, readMore, rfl⟩
      rcases List.forall_mem_cons.mp kept with ⟨firstKept, restKept⟩
      rcases List.forall_mem_cons.mp valid with ⟨firstValid, restValid⟩
      have isValue := (takes_operandToken inLeaf firstValid).1.isValue
      rw [List.map_cons, value_operandToken inLeaf firstKept written firstValid,
        ih (inLeaf.push_value schema isValue).separate restKept readMore restValid]

/-- A valid operand that was written for a value has the value. -/
theorem value_arrayOperand (inLeaf : context.InLeaf field operator) {value : Value}
    (kept : ∀ single ∈ value.operands, single.KeptUnder field operator) {operand : Operand}
    (read : schema.arrayOperand context value.toJson = .ok operand)
    (valid : ∀ token ∈ operand.tokens, token.isInvalid = false) : operand.value = value := by
  rcases schema.arrayOperand_eq_ok context read with
    ⟨queries, tokens, isArray, _, readTokens, rfl⟩ | ⟨text, written, rfl⟩
  · cases value with
    | list values =>
        rw [Value.toJson, Value.toJsonEach_eq_map] at isArray
        cases isArray
        exact congrArg Value.list (map_value_operandTokens inLeaf kept readTokens valid)
    | number amount => cases amount <;> contradiction
    | _ => contradiction
  · rcases value.list_or_single with ⟨values, rfl⟩ | isSingle
    · contradiction
    · rw [isSingle, List.forall_mem_singleton] at kept
      exact value_operandToken inLeaf kept written (valid _ List.mem_cons_self)

end Schema

/-! ## Expressions -/

/-- The operands of a compiled condition are kept under a field of its type that keeps them. -/
theorem Condition.Typed.keptUnder {entry field : Field} {test : Condition}
    (typed : test.Typed entry) (type_eq : field.type = test.type)
    (keeps : test.operator.isComparer = true → ∀ value ∈ test.value.operands, field.Keeps value) :
    ∀ value ∈ test.value.operands, value.KeptUnder field test.operator := by
  intro value member
  refine ⟨fun isPresence => typed.absent isPresence value member, ?_,
    fun isComparer => keeps isComparer value member⟩
  intro isComparer
  rw [type_eq, typed.fits.type_eq]
  exact typed.fits.means isComparer value member

/-- A compiled condition that a schema keeps is compiled from its array again, if anything is. -/
theorem Condition.ofNode_of_toJson {schema : Schema} {entry : Field} {test : Condition}
    (typed : test.Typed entry) (keeps : schema.Keeps test) {node : Node}
    (read : Node.ofJson schema test.toJson = .ok node)
    (valid : ∀ place ∈ node.slots, place.2.isInvalid = false) :
    Expression.ofNode schema node = .ok (.condition test) := by
  have readLeaf : schema.arrayLeaf (.string test.field) (.string test.operator.name)
      test.value.toJson = .ok node := read
  obtain ⟨_, _, operand, sameField, sameOperator, readOperand, rfl⟩ := schema.arrayLeaf_eq_ok readLeaf
  cases sameField
  cases sameOperator
  simp only [Node.slots, Operand.slots, List.forall_mem_cons, List.forall_mem_map] at valid
  obtain ⟨fieldValid, operatorValid, operandValid⟩ := valid
  obtain ⟨named, field, found, leads, names⟩ := Schema.exists_names_slotToken fieldValid
  have relation_kind := Schema.kind_slotToken_operatorName typed.fits.known operatorValid
  generalize schema.slotToken Context.start test.field TokenKind.isField = subject
    at readOperand operatorValid names relation_kind ⊢
  generalize schema.slotToken (Context.start.push schema subject) test.operator.name
    TokenKind.isOperator = relation at readOperand relation_kind ⊢
  obtain ⟨name_eq, type_eq, keepsOperands⟩ := keeps named field found leads
  obtain ⟨isOperator, toOperator_eq⟩ := Operator.toOperator_kind typed.fits.known
  rw [← relation_kind] at isOperator toOperator_eq
  have current := Context.field_push_of_names schema Context.start names
  have inLeaf := Context.inLeaf_of_operator schema current isOperator
  rw [toOperator_eq] at inLeaf
  have values : ∀ token ∈ operand.tokens, token.kind.isValue = true := by
    intro token member
    rcases schema.fills_of_arrayOperand _ readOperand token member with isInvalid | isValue
    · rw [operandValid token member] at isInvalid
      contradiction
    · exact isValue
  have value_eq := Schema.value_arrayOperand inLeaf (typed.keptUnder type_eq keepsOperands)
    readOperand operandValid
  rw [Expression.ofNode, ofLeaf_eq names isOperator values, toOperator_eq, value_eq, name_eq,
    type_eq]
  rfl

namespace Expression

variable {schema : Schema}

/-- Every condition of an expression is kept by a schema. -/
def KeptBy (schema : Schema) : Expression → Prop :=
  Throughout schema.Keeps fun _ _ => True

/-- Compiled expressions that were written as arrays are compiled to themselves one by one. -/
theorem ofNodes_of_toJsonEach {expressions : List Expression}
    (each : ∀ expression ∈ expressions, ∀ node, Node.ofJson schema expression.toJson = .ok node →
      (∀ place ∈ node.slots, place.2.isInvalid = false) → ofNode schema node = .ok expression)
    {nodes : List Node} (read : Node.ofJsonEach schema (toJsonEach expressions) = .ok nodes)
    (valid : ∀ place ∈ Node.slotsAmong nodes, place.2.isInvalid = false) :
    ofNodes schema nodes = .ok expressions := by
  induction expressions generalizing nodes with
  | nil =>
      cases read
      rfl
  | cons expression rest ih =>
      rw [toJsonEach] at read
      rcases Node.ofJsonEach_cons_eq_ok_iff.mp read with ⟨node, more, readFirst, readRest, rfl⟩
      rcases List.forall_mem_cons.mp each with ⟨first, others⟩
      rcases List.forall_mem_append.mp valid with ⟨firstValid, restValid⟩
      exact ofNodes_cons_eq_ok_iff.mpr
        ⟨expression, rest, first node readFirst firstValid, ih others readRest restValid, rfl⟩

/-- A tree without invalid tokens that was read from the array of a compiled expression compiles to
the expression. -/
theorem ofNode_of_toJson {expression : Expression} (wellTyped : expression.WellTyped schema)
    (kept : expression.KeptBy schema) {node : Node}
    (read : Node.ofJson schema expression.toJson = .ok node)
    (valid : ∀ place ∈ node.slots, place.2.isInvalid = false) :
    ofNode schema node = .ok expression := by
  induction wellTyped generalizing node with
  | condition typed =>
      obtain ⟨entry, _, typed⟩ := typed
      cases kept with
      | condition keeps => exact Condition.ofNode_of_toJson typed keeps read valid
  | @logic connective children known each ih =>
      cases kept with
      | logic _ eachKept =>
          rcases Node.ofJson_eq_ok read with ⟨_, _, _, shape, _⟩ |
            ⟨keyword, queries, nodes, shape, _, readChildren, rfl⟩
          · cases shape
          · cases shape
            rcases List.forall_mem_cons.mp valid with ⟨_, childrenValid⟩
            have parts := ofNodes_of_toJsonEach
              (fun child member node => ih child member (eachKept child member)) readChildren
              childrenValid
            obtain ⟨isLogic, toLogic_eq⟩ := ofConnective_name known.1
            rw [ofNode, Token.toLogic_of_isLogic isLogic, toLogic_eq, parts]
            rfl

end Expression

namespace Source

variable {schema : Schema} {source : Source} {expression : Expression}

/-- A compiled expression that its schema keeps is compiled from its array query to itself again, or
to an error, but not to another expression. -/
theorem compileJson_toJson_of_keptBy (compiled : source.compile schema = .ok (some expression))
    (kept : expression.KeptBy schema) :
    schema.compileJson expression.toJson = .ok (some expression) ∨
      ∃ error, schema.compileJson expression.toJson = .error error := by
  have wellTyped := (wellTyped_of_compile compiled).1
  have query_eq : Node.ofQuery schema expression.toJson =
      (Node.ofJson schema expression.toJson).map some := by
    cases expression <;> rfl
  rw [Schema.compileJson, query_eq]
  cases read : Node.ofJson schema expression.toJson with
  | error error => exact Or.inr ⟨.malformed error, rfl⟩
  | ok node =>
      have reports := Expression.reportsOn_ofNode (Node.filled_of_ofJson read)
      cases again : Expression.ofNode schema node with
      | error error =>
          refine Or.inr ⟨error, ?_⟩
          simp [Except.map, Except.mapError, bind, Except.bind, Schema.compileNode, again]
      | ok result =>
          rw [again] at reports
          have valid := isInvalid_of_firstFault? reports.firstFault?_eq_none
          have same := Expression.ofNode_of_toJson wellTyped kept read valid
          left
          simp [Except.map, Except.mapError, bind, Except.bind, Schema.compileNode, same]

/-- Sizes, of which one has a short name and another a name that only adds quotes. -/
def sizeField : Field :=
  ⟨"size", "", .single .string, [.compare .equal], [⟨"s", "small"⟩, ⟨"small", "'small'"⟩]⟩

def sizeSchema : Schema :=
  ⟨[sizeField]⟩

def sizeQuery : Source :=
  .value (.array [.string "SIZE", .string "=", .string "s"])

def sizeExpression : Expression :=
  .condition ⟨.single .string, "size", .compare .equal, .text "small"⟩

theorem compileJson_toJson_of_keptBy_size :
    sizeQuery.compile sizeSchema = .ok (some sizeExpression) ∧
      sizeExpression.KeptBy sizeSchema ∧
      (sizeSchema.compileJson sizeExpression.toJson = .ok (some sizeExpression) ∨
        ∃ error, sizeSchema.compileJson sizeExpression.toJson = .error error) := by
  have compiled : sizeQuery.compile sizeSchema = .ok (some sizeExpression) := rfl
  have kept : sizeExpression.KeptBy sizeSchema := by
    apply Expression.Throughout.condition
    intro named field found leads
    cases found
    cases leads
    refine ⟨rfl, rfl, ?_⟩
    intro _ value member
    rw [List.mem_singleton.mp member]
    intro text written _ meant read
    have plain : needsQuotes "small" = false := by decide
    rw [Value.toJson, plain] at written
    cases written
    cases read
    rfl
  exact ⟨compiled, kept, compileJson_toJson_of_keptBy compiled kept⟩

/-- A field with two lookups, of which one is named like the value of the other. -/
def chainSchema : Schema :=
  ⟨[⟨"x", "", .single .string, [.compare .equal], [⟨"a", "b"⟩, ⟨"b", "c"⟩]⟩]⟩

def chainExpression (content : String) : Expression :=
  .condition ⟨.single .string, "x", .compare .equal, .text content⟩

/-- Compiling again may change an expression whose operand is named like a lookup. -/
theorem not_forall_recompiled :
    ¬ ∀ (schema : Schema) (source : Source) (expression : Expression),
      source.compile schema = .ok (some expression) →
        schema.compileJson expression.toJson = .ok (some expression) ∨
          ∃ error, schema.compileJson expression.toJson = .error error := by
  intro claimed
  have compiled : (value (.array [.string "x", .string "Equal", .string "a"])).compile chainSchema =
      .ok (some (chainExpression "b")) := rfl
  have again : chainSchema.compileJson (chainExpression "b").toJson =
      .ok (some (chainExpression "c")) := rfl
  rcases claimed chainSchema _ _ compiled with same | ⟨error, failed⟩
  · rw [again] at same
    simp [chainExpression] at same
  · rw [again] at failed
    contradiction

end Source

end FilterQuery
