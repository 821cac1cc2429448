import FilterQuery.Proofs.Expression.Operand

/-!
# Conditions read back

The name of the field, the name of the operator and the operand of a compiled condition are read
into the slots of a leaf again, and the leaf compiles to the condition.
-/

namespace FilterQuery

open Lexicon

/-- The kind of the keywords of an operator. -/
def Operator.kind : Operator → TokenKind
  | compare relation => .comparer relation
  | presence test => .presence test
  | unknown => .invalid

theorem TokenKind.kind_toOperator {kind : TokenKind} (isOperator : kind.isOperator = true) :
    kind.toOperator.kind = kind ∧ kind.toOperator ≠ .unknown := by
  cases kind with
  | comparer _ | presence _ => exact ⟨rfl, Operator.noConfusion⟩
  | _ => contradiction

theorem Operator.toOperator_kind {operator : Operator} (known : operator ≠ .unknown) :
    operator.kind.isOperator = true ∧ operator.kind.toOperator = operator := by
  cases operator with
  | compare _ | presence _ => exact ⟨rfl, rfl⟩
  | unknown => contradiction

theorem Operator.isComparer_kind {operator : Operator} (isComparer : operator.isComparer = true) :
    operator.kind.isComparer = true := by
  cases operator with
  | compare relation => rfl
  | presence _ | unknown => contradiction

theorem Operator.mem_all {operator : Operator} (known : operator ≠ .unknown) :
    operator ∈ Operator.all := by
  cases operator with
  | compare relation => cases relation <;> decide
  | presence test => cases test <;> decide
  | unknown => contradiction

/-- An operator is a keyword by its name. -/
theorem firstMatch?_operatorName {operator : Operator} (known : operator ≠ .unknown) :
    firstMatch? keywordPatterns operator.name.toList =
      some (operator.kind, operator.name.toList.length) := by
  have each : ∀ operator ∈ Operator.all, firstMatch? keywordPatterns operator.name.toList =
      some (operator.kind, operator.name.toList.length) := by
    decide +kernel
  exact each operator (Operator.mem_all known)

theorem Schema.findExact?_operatorName (schema : Schema) {operator : Operator}
    (known : operator ≠ .unknown) : schema.findExact? operator.name = some operator.kind := by
  rw [findExact?_eq_some_iff, match?_eq_or, firstMatch?_operatorName known, Option.some_or]

/-- A field stands for another when they differ in their labels at most. -/
structure Field.StandsFor (field entry : Field) : Prop where
  name_eq : field.name = entry.name
  type_eq : field.type = entry.type
  operators_eq : field.operators = entry.operators
  values_eq : field.values = entry.values

namespace Condition

/-- What a condition that was compiled against a field asks of the field. -/
structure Fits (entry : Field) (test : Condition) : Prop where
  type_eq : test.type = entry.type
  field_eq : test.field = entry.name
  known : test.operator ≠ .unknown
  allows : entry.allows test.operator = true
  means : test.operator.isComparer = true → ∀ value ∈ test.value.operands,
    ∃ raw, entry.type.cast? raw = some value
  /-- A list is not empty, and only an operator that takes a list has several values. -/
  listed : test.operator.isComparer = true → ∀ values, test.value = .list values →
    values ≠ [] ∧ (2 ≤ values.length → test.operator.takesList = true)

/-- What a condition that was compiled against a field has to be like to be read back. -/
structure ReadsBack (schema : Schema) (entry : Field) (test : Condition) : Prop where
  notNumber : test.type.element ≠ .number
  absent : test.operator.isPresence = true → test.value = .emptyText
  resolves : ∃ field, schema.field? test.field = some field ∧ field.StandsFor entry
  named : schema.findExact? test.field = some .field ∨
    schema.findExact? test.field = some .literal
  unshadowed : ∀ value ∈ test.value.operands, entry.Unshadowed value

end Condition

/-! ## Compiled leaves -/

/-- The value of an operand whose tokens are all values. -/
def Operand.value : Operand → Value
  | single token => token.value
  | list tokens => .list (tokens.map Token.value)

theorem mapM_toValue_eq {tokens : List Token}
    (values : ∀ token ∈ tokens, token.kind.isValue = true) :
    tokens.mapM Token.toValue = .ok (tokens.map Token.value) := by
  induction tokens with
  | nil => rfl
  | cons token rest ih =>
      rcases List.forall_mem_cons.mp values with ⟨isValue, restValues⟩
      rw [List.mapM_cons, Token.toValue_of_isValue isValue, ih restValues]
      rfl

theorem Operand.toValue_eq {operand : Operand}
    (values : ∀ token ∈ operand.tokens, token.kind.isValue = true) :
    operand.toValue = .ok operand.value := by
  cases operand with
  | single token => exact Token.toValue_of_isValue (values token List.mem_cons_self)
  | list tokens =>
      have each : tokens.mapM Token.toValue = .ok (tokens.map Token.value) :=
        mapM_toValue_eq values
      rw [toValue, each]
      rfl

/-- No operand is read as a list. -/
theorem ValueType.cast?_ne_list (type : ValueType) (raw : String) (values : List Value) :
    type.cast? raw ≠ some (.list values) := by
  intro read
  cases type with
  | string => cases read
  | _ =>
      rcases Option.map_eq_some_iff.mp read with ⟨_, _, same⟩
      contradiction

theorem Value.operands_of_cast? {type : ValueType} {raw : String} {value : Value}
    (read : type.cast? raw = some value) : value.operands = [value] := by
  cases value with
  | list values => exact absurd read (type.cast?_ne_list raw values)
  | _ => rfl

namespace Condition

variable {schema : Schema} {entry : Field} {subject relation : Token} {operand : Operand}

/-- A leaf of valid tokens compiles to what its tokens stand for. -/
theorem ofLeaf_eq (names : subject.Names schema entry)
    (isOperator : relation.kind.isOperator = true)
    (values : ∀ token ∈ operand.tokens, token.kind.isValue = true) :
    ofLeaf schema subject relation operand =
      .ok ⟨entry.type, entry.name, relation.kind.toOperator, operand.value⟩ := by
  rw [ofLeaf, names.toField_eq, Token.toOperator_of_isOperator isOperator,
    Operand.toValue_eq values]
  rfl

/-- The condition of a typed leaf fits the field that it was compiled against. -/
theorem fits_of_typed (asks : relation.Asks entry)
    (fits : operand.Fits entry relation.kind.toOperator) :
    Fits entry ⟨entry.type, entry.name, relation.kind.toOperator, operand.value⟩ where
  type_eq := rfl
  field_eq := rfl
  known := (TokenKind.kind_toOperator asks.1).2
  allows := asks.2
  means isComparer := by
    have means := fits.means isComparer
    cases operand with
    | single token =>
        obtain ⟨raw, read⟩ := (means token List.mem_cons_self).2
        intro value member
        rw [Operand.value, Value.operands_of_cast? read, List.mem_singleton] at member
        rw [member]
        exact ⟨raw, read⟩
    | list tokens =>
        intro value member
        rcases List.mem_map.mp member with ⟨token, inTokens, rfl⟩
        exact (means token inTokens).2
  listed isComparer values isList := by
    cases operand with
    | single token =>
        obtain ⟨raw, read⟩ := (fits.means isComparer token List.mem_cons_self).2
        have same : token.value = .list values := isList
        rw [same] at read
        exact absurd read (ValueType.cast?_ne_list _ raw values)
    | list tokens =>
        cases isList
        constructor
        · simpa [Operand.tokens] using fits.nonempty
        · rw [List.length_map]
          exact fits.listed isComparer

end Condition

/-! ## Leaves read back -/

namespace Schema

variable {schema : Schema}

/-- The name of a field is read as the field. -/
theorem slotToken_fieldName {name : String} {field : Field}
    (found : schema.field? name = some field) (same : field.name = name)
    (named : schema.findExact? name = some .field ∨ schema.findExact? name = some .literal) :
    schema.slotToken Context.start name TokenKind.isField = Token.ofText .field name := by
  have fieldToken_eq : schema.fieldToken name = Token.ofText .field name := by
    rw [fieldToken, found]
    simp only [same]
  have classified : ((schema.findExact? name).bind fun kind =>
      schema.classify Context.start kind name) = some (Token.ofText .field name) := by
    rw [← fieldToken_eq]
    rcases named with exact_eq | exact_eq <;> rw [exact_eq] <;> rfl
  rw [slotToken, classified]
  rfl

theorem classify_operator {operator : Operator} (known : operator ≠ .unknown)
    (context : Context) (raw : String) : schema.classify context operator.kind raw =
      some (Token.acceptedIf (context.allows operator) operator.kind raw) := by
  cases operator with
  | compare _ | presence _ => rfl
  | unknown => contradiction

/-- A text that is found as an operator is read as the operator, right behind a field that allows
it. -/
theorem slotToken_operator {context : Context} {operator : Operator} {text : String}
    (known : operator ≠ .unknown) (found : schema.findExact? text = some operator.kind)
    (allowed : context.allows operator = true) :
    schema.slotToken context text TokenKind.isOperator = Token.ofText operator.kind text := by
  rw [slotToken, found, Option.bind_some, classify_operator known, allowed]
  cases operator with
  | compare _ | presence _ => rfl
  | unknown => contradiction

/-- The empty text is the missing operand of a presence operator. -/
theorem arrayOperand_absent {context : Context} {field : Field} {operator : Operator}
    (inLeaf : context.InLeaf field operator) (isPresence : operator.isPresence = true) :
    schema.arrayOperand context Value.emptyText.toJson = .ok (.single Token.noOperand) := by
  have written : Value.emptyText.toJson = .string "" := by
    have plain : needsQuotes "" = false := by decide
    rw [Value.emptyText, Value.toJson, plain]
    rfl
  have absent : schema.operandToken context "" = Token.noOperand := by
    rw [operandToken, if_pos]
    simp [inLeaf.operator_eq, isPresence]
  rw [written, arrayOperand, Json.scalarText, Except.map, absent]
  · exact Json.noConfusion
  · exact fun _ => Json.noConfusion

end Schema

/-! ## Behind an operator -/

/-- Behind a text that is found as an operator which the field allows, the leaf is one of the field
and the operator, and a value is expected if the operator compares. -/
theorem Schema.slotToken_behind {schema : Schema} {field : Field} {subject : Token}
    (names : subject.Names schema field) {operator : Operator} (known : operator ≠ .unknown)
    (allowed : field.allows operator = true) {text : String}
    (found : schema.findExact? text = some operator.kind) :
    schema.slotToken (Context.start.push schema subject) text TokenKind.isOperator =
        Token.ofText operator.kind text ∧
      ((Context.start.push schema subject).push schema
        (Token.ofText operator.kind text)).InLeaf field operator ∧
      (operator.isComparer = true → ((Context.start.push schema subject).push schema
        (Token.ofText operator.kind text)).Expects false true false) := by
  have current := Context.field_push_of_names schema Context.start names
  have behindField : (Context.start.push schema subject).allows operator = true := by
    have notSpace : subject.kind ≠ .space := by
      rw [names.kind_eq]
      exact TokenKind.noConfusion
    rw [Context.allows, Context.previous_push schema Context.start notSpace, names.kind_eq, current,
      Option.any_some, allowed]
    rfl
  have relation_kind : (Token.ofText operator.kind text).kind = operator.kind := rfl
  refine ⟨slotToken_operator known found behindField, ?_⟩
  generalize Token.ofText operator.kind text = relation at relation_kind
  obtain ⟨isOperator, toOperator_eq⟩ := Operator.toOperator_kind known
  rw [← relation_kind] at isOperator toOperator_eq
  have inLeaf := Context.inLeaf_of_operator schema current isOperator
  rw [toOperator_eq] at inLeaf
  refine ⟨inLeaf, fun isComparer => ?_⟩
  apply Context.expects_of_isComparer (Context.previous_push schema
    (Context.start.push schema subject) (TokenKind.ordinary_of_isOperator isOperator).notSpace)
  rw [relation_kind]
  exact Operator.isComparer_kind isComparer

namespace Condition

variable {schema : Schema} {entry field : Field} {test : Condition} {context : Context}

/-- The operand of a condition is read as the operands that mean its value. -/
theorem arrayOperand_toJson (fits : test.Fits entry)
    (absent : test.operator.isPresence = true → test.value = .emptyText)
    (takes : test.operator.isComparer = true →
      ∀ value ∈ test.value.operands, schema.TakesBack field test.operator value)
    (inLeaf : context.InLeaf field test.operator)
    (expects : test.operator.isComparer = true → context.Expects false true false) :
    ∃ operand, schema.arrayOperand context test.value.toJson = .ok operand ∧
      (∀ token ∈ operand.tokens, token.kind.isValue = true) ∧ operand.value = test.value := by
  cases shape : test.operator with
  | unknown => exact absurd shape fits.known
  | presence _ =>
      have isPresence : test.operator.isPresence = true := by
        rw [shape]
        rfl
      rw [absent isPresence]
      refine ⟨.single Token.noOperand, schema.arrayOperand_absent inLeaf isPresence, ?_, rfl⟩
      intro token member
      rw [List.mem_singleton.mp member]
      rfl
  | compare _ =>
      have isComparer : test.operator.isComparer = true := by
        rw [shape]
        rfl
      have takes := takes isComparer
      rcases test.value.list_or_single with ⟨values, isList⟩ | isSingle
      · rw [isList] at takes ⊢
        obtain ⟨nonempty, listed⟩ := fits.listed isComparer values isList
        refine ⟨_, Schema.arrayOperand_list inLeaf (expects isComparer) nonempty takes listed, ?_,
          ?_⟩
        · intro token member
          rcases List.mem_map.mp member with ⟨_, _, rfl⟩
          rfl
        · simp [Operand.value, Function.comp_def]
      · rw [isSingle, List.forall_mem_singleton] at takes
        refine ⟨_, Schema.arrayOperand_single inLeaf (expects isComparer) takes, ?_, rfl⟩
        intro token member
        rw [List.mem_singleton.mp member]
        rfl

/-- A condition is read back from its array if the name of its field is read as the field, and its
operands are taken back. -/
theorem ofJson_of_takesBack (fits : test.Fits entry)
    (absent : test.operator.isPresence = true → test.value = .emptyText)
    (found : schema.field? test.field = some field) (stands : field.StandsFor entry)
    (subject : schema.slotToken Context.start test.field TokenKind.isField =
      Token.ofText .field test.field)
    (takes : test.operator.isComparer = true →
      ∀ value ∈ test.value.operands, schema.TakesBack field test.operator value) :
    ∃ node, Node.ofJson schema test.toJson = .ok node ∧
      Expression.ofNode schema node = .ok (.condition test) := by
  have same : field.name = test.field := by rw [stands.name_eq, fits.field_eq]
  have names : (Token.ofText .field test.field).Names schema field := ⟨test.field, rfl, found⟩
  generalize Token.ofText .field test.field = fieldToken at subject names
  have allowed : field.allows test.operator = true := by
    rw [Field.allows, stands.operators_eq]
    exact fits.allows
  obtain ⟨relation, inLeaf, expects⟩ :=
    Schema.slotToken_behind names fits.known allowed (schema.findExact?_operatorName fits.known)
  obtain ⟨isOperator, toOperator_eq⟩ := Operator.toOperator_kind fits.known
  obtain ⟨operand, readOperand, values, value_eq⟩ :=
    arrayOperand_toJson fits absent takes inLeaf expects
  refine ⟨.leaf fieldToken (Token.ofText test.operator.kind test.operator.name) operand, ?_, ?_⟩
  · rw [toJson, Node.ofJson, Schema.arrayLeaf]
    simp only [Json.stringContent, bind, Except.bind, subject, relation, readOperand]
    rfl
  · have test_eq := @ofLeaf_eq _ _ _ (Token.ofText test.operator.kind test.operator.name) _ names
      isOperator values
    rw [Expression.ofNode, test_eq, value_eq, same, stands.type_eq, ← fits.type_eq]
    change Except.ok (Expression.condition ⟨_, _, test.operator.kind.toOperator, _⟩) = _
    rw [toOperator_eq]

/-- A compiled condition is read back from its array. -/
theorem ofJson_toJson (fits : test.Fits entry) (reads : test.ReadsBack schema entry)
    (avoids : schema.NamesAvoidDigits) :
    ∃ node, Node.ofJson schema test.toJson = .ok node ∧
      Expression.ofNode schema node = .ok (.condition test) := by
  obtain ⟨field, found, stands⟩ := reads.resolves
  have same : field.name = test.field := by rw [stands.name_eq, fits.field_eq]
  refine ofJson_of_takesBack fits reads.absent found stands
    (schema.slotToken_fieldName found same reads.named) ?_
  intro isComparer value member
  apply Schema.takesBack_of_unshadowed avoids _ isComparer
  · rw [Field.Unshadowed, stands.values_eq]
    exact reads.unshadowed value member
  · rw [stands.type_eq]
    exact fits.means isComparer value member
  · rw [stands.type_eq, ← fits.type_eq]
    exact reads.notNumber

end Condition

end FilterQuery
