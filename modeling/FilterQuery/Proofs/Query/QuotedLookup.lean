import FilterQuery.Proofs.Query.ConditionReading
import FilterQuery.Proofs.Query.LeafAgreement
import FilterQuery.Proofs.Query.OperandShape

/-!
# Lookups in double quotes

The name of a lookup can always be put in double quotes, whatever it is: a keyword, several words or
nothing at all.  In either grammar it is found as one quoted text, the quotes are taken off to find
the lookup, and its value is cast to the type of the field.  If the value has no meaning there, both
grammars refuse the text.
-/

namespace FilterQuery

open Character Lexicon

/-- A text in double quotes. -/
def inDoubleQuotes (text : String) : String :=
  "\"" ++ text ++ "\""

theorem inDoubleQuotes_toList (text : String) :
    (inDoubleQuotes text).toList = '"' :: (text.toList ++ ['"']) := by
  simp [inDoubleQuotes]

/-- What stands behind a field in a text query that compares it to a text in double quotes. -/
def comparison (relation : Comparer) (text : String) : String :=
  " " ++ (relation.keyword ++ (" " ++ inDoubleQuotes text))

/-- No name and no label of a schema begins with a double quote. -/
def Schema.NamesAvoidDoubleQuotes (schema : Schema) : Prop :=
  ∀ field ∈ schema.fields, field.name.toList.head?.any (· == '"') = false ∧
    field.label.toList.head?.any (· == '"') = false

/-- A text leads to a field in front of another text: it is found whole as a field or as free text,
alone and there, and it names the field, as does the name of the field itself. -/
structure Schema.LeadsTo (schema : Schema) (text rest : String) (field : Field) : Prop where
  alone : ∃ kind ∈ [TokenKind.field, .literal], schema.find? text = some (kind, text)
  inFront : ∃ kind ∈ [TokenKind.field, .literal], schema.find? (text ++ rest) = some (kind, text)
  named : schema.field? text = some field
  canonical : schema.field? field.name = some field

/-- A lookup can be named in double quotes: its name holds none, and no other lookup has the name
with its quotes. -/
structure Field.QuotesLookup (field : Field) (name : String) (lookup : Lookup) : Prop where
  found : field.lookup? name = some lookup
  closed : '"' ∉ name.toList
  unquoted : field.lookup? (inDoubleQuotes name) = none

/-- In double quotes a lookup means its value. -/
theorem Field.QuotesLookup.operand?_eq {field : Field} {name : String} {lookup : Lookup}
    (quotes : field.QuotesLookup name lookup) :
    field.operand? (inDoubleQuotes name) = field.type.cast? lookup.value := by
  rw [operand?, substitute, quotes.unquoted, Option.none_or, inDoubleQuotes, stripQuotes_wrapped,
    quotes.found]
  rfl

/-- The token of a lookup in double quotes: its value, if that has a meaning. -/
def Field.lookupToken (field : Field) (name : String) (lookup : Lookup) : Token :=
  match field.type.cast? lookup.value with
  | some value => ⟨.ofFieldType field.type, value⟩
  | none => Token.invalid (inDoubleQuotes name)

namespace Schema

variable {schema : Schema} {field : Field} {context : Context} {operator : Operator}
  {name : String} {lookup : Lookup}

/-- A text in double quotes that holds none is found as a quoted text. -/
theorem findExact?_inDoubleQuotes (avoids : schema.NamesAvoidDoubleQuotes) {text : String}
    (closed : '"' ∉ text.toList) :
    schema.findExact? (inDoubleQuotes text) = some (.value .string) := by
  have isQuote : isQuote '"' = true := rfl
  have noName := firstMatch?_names_mark avoids (text.toList ++ ['"']) (c := '"') rfl (by decide)
    (by decide)
  rw [findExact?_eq_some_iff, inDoubleQuotes_toList, match?_eq_or,
    firstMatch?_keywordPatterns_eq_none _ (mayStart_of_isQuote isQuote), noName,
    firstMatch?_literal_quoted isQuote closed]
  rfl

section Operand

variable (avoids : schema.NamesAvoidDoubleQuotes) (inLeaf : context.InLeaf field operator)
  (isComparer : operator.isComparer = true) (expects : context.Expects false true false)
  (quotes : field.QuotesLookup name lookup)
include avoids inLeaf isComparer expects quotes

/-- Where a leaf that compares expects a value, a lookup in double quotes becomes its token. -/
theorem wholeToken_inDoubleQuotes :
    schema.wholeToken context (inDoubleQuotes name) = field.lookupToken name lookup := by
  rw [wholeToken, findExact?_inDoubleQuotes avoids quotes.closed, Option.bind_some,
    classify_of_suggestsOperand expects rfl, Option.getD_some, Field.lookupToken]
  split
  · next value means =>
      exact valueToken_eq inLeaf isComparer (quotes.operand?_eq.trans means)
  · next meaningless =>
      exact valueToken_eq_invalid inLeaf (quotes.operand?_eq.trans meaningless)

/-- As an operand of an array query it becomes the same token. -/
theorem operandToken_inDoubleQuotes :
    schema.operandToken context (inDoubleQuotes name) = field.lookupToken name lookup := by
  have piece : schema.IsPiece (inDoubleQuotes name) :=
    ⟨_, TokenKind.noConfusion, findExact?_inDoubleQuotes avoids quotes.closed⟩
  have slot : schema.slotToken context (inDoubleQuotes name) TokenKind.isValue =
      (schema.wholeToken context (inDoubleQuotes name)).inSlot (inDoubleQuotes name)
        TokenKind.isValue := rfl
  rw [piece.operandToken_eq, slot, wholeToken_inDoubleQuotes avoids inLeaf isComparer expects quotes,
    Field.lookupToken]
  split <;> rfl

end Operand

end Schema

/-- What a leaf with a lookup in double quotes means: the condition on the value of the lookup, or
nothing if the value has no meaning. -/
theorem Condition.ofLeaf_lookupToken {schema : Schema} {field : Field}
    (canonical : schema.field? field.name = some field) (relation : Comparer)
    (written name : String) (lookup : Lookup) :
    ofLeaf schema (Token.ofText .field field.name) (Token.ofText (.comparer relation) written)
        (.single (field.lookupToken name lookup)) =
      match field.type.cast? lookup.value with
      | some value => .ok ⟨field.type, field.name, .compare relation, value⟩
      | none => .error (.invalidValue (inDoubleQuotes name)) := by
  have names : (Token.ofText .field field.name).Names schema field := ⟨field.name, rfl, canonical⟩
  rw [Field.lookupToken]
  split
  · exact ofLeaf_eq names rfl (List.forall_mem_singleton.mpr rfl)
  · rw [ofLeaf, names.toField_eq]
    rfl

namespace Schema

variable {schema : Schema} {field : Field} {text rest name : String} {lookup : Lookup}
  {relation : Comparer}

/-- A text that leads to a field becomes the token of the field. -/
theorem LeadsTo.wholeToken_eq (leads : schema.LeadsTo text rest field) :
    schema.wholeToken Context.start text = Token.ofText .field field.name := by
  have fieldToken_eq : schema.fieldToken text = Token.ofText .field field.name := by
    rw [fieldToken, leads.named]
  obtain ⟨kind, member, alone⟩ := leads.alone
  rw [wholeToken, findExact?_of_find? alone, ← fieldToken_eq]
  rcases List.mem_pair.mp member with rfl | rfl <;> rfl

theorem LeadsTo.slotToken_eq (leads : schema.LeadsTo text rest field) :
    schema.slotToken Context.start text TokenKind.isField = Token.ofText .field field.name := by
  rw [slotToken_of_belongs (by rw [leads.wholeToken_eq]; rfl), leads.wholeToken_eq]

theorem LeadsTo.names (leads : schema.LeadsTo text rest field) :
    (Token.ofText .field field.name).Names schema field :=
  ⟨field.name, rfl, leads.canonical⟩

/-! ## The array grammar -/

/-- The array grammar compiles a lookup in double quotes to its value, or refuses it. -/
theorem compileJson_quotedLookup (avoids : schema.NamesAvoidDoubleQuotes)
    (leads : schema.LeadsTo text rest field) (allowed : field.allows (.compare relation) = true)
    (quotes : field.QuotesLookup name lookup) :
    schema.compileJson
        (.array [.string text, .string relation.name, .string (inDoubleQuotes name)]) =
      match field.type.cast? lookup.value with
      | some value =>
          .ok (some (.condition ⟨field.type, field.name, .compare relation, value⟩))
      | none => .error (.invalidValue (inDoubleQuotes name)) := by
  have known : Operator.compare relation ≠ .unknown := Operator.noConfusion
  have found := schema.findExact?_operatorName known
  rw [Operator.name] at found
  obtain ⟨operatorSlot, inLeaf, expects⟩ := slotToken_behind leads.names known allowed found
  have operandSlot := operandToken_inDoubleQuotes avoids inLeaf rfl (expects rfl) quotes
  have text_eq : (Json.string (inDoubleQuotes name)).scalarText = .ok (inDoubleQuotes name) := rfl
  have leaf := schema.compileJson_leaf text relation.name
    (schema.arrayOperand_of_scalarText _ text_eq)
  rw [leads.slotToken_eq, operatorSlot, operandSlot, Operator.kind,
    Condition.ofLeaf_lookupToken leads.canonical] at leaf
  rw [leaf]
  split <;> rfl

/-! ## The text grammar -/

/-- A lookup in double quotes behind a field and the words of an operator. -/
def lookupTexts (text : String) (relation : Comparer) (name : String) : LeafTexts :=
  ⟨text, relation.keyword, inDoubleQuotes name, []⟩

/-- The words of an operator are found in front of a text in double quotes. -/
theorem find?_keyword_inDoubleQuotes (schema : Schema) (relation : Comparer) (name : String) :
    schema.find? (relation.keyword ++ (" " ++ inDoubleQuotes name)) =
      some (.comparer relation, relation.keyword) := by
  have known : Operator.compare relation ≠ .unknown := Operator.noConfusion
  have ends : ∀ c ∈ ((" " ++ inDoubleQuotes name).toList.dropWhile isBlank).head?,
      sameLetter c 'o' = false := by
    rw [String.toList_append, inDoubleQuotes_toList]
    rintro c ⟨⟩
    decide
  exact find?_of_match? (schema.match?_of_keyword
    (firstMatch?_operatorKeyword known (breaksWord_blank _) fun _ => ends))

theorem findExact?_keyword (schema : Schema) (relation : Comparer) :
    schema.findExact? relation.keyword = some (.comparer relation) := by
  have known : Operator.compare relation ≠ .unknown := Operator.noConfusion
  have matched := schema.match?_of_keyword
    (firstMatch?_operatorKeyword known breaksWord_nil fun _ => by simp)
  rw [findExact?_eq_some_iff]
  rwa [List.append_nil] at matched

theorem found_lookupTexts (avoids : schema.NamesAvoidDoubleQuotes)
    (leads : schema.LeadsTo text (comparison relation name) field)
    (closed : '"' ∉ name.toList) : (lookupTexts text relation name).Found schema where
  field := by
    obtain ⟨kind, _, found⟩ := leads.inFront
    exact congrArg (Option.map (·.2)) found
  operator := by
    have found := schema.find?_keyword_inDoubleQuotes relation name
    exact congrArg (Option.map (·.2)) found
  values := by
    have quoted := findExact?_eq_some_iff.mp (findExact?_inDoubleQuotes avoids closed)
    have found := @find?_of_match? schema (.value .string) (inDoubleQuotes name) "" (by simpa)
    exact congrArg (Option.map (·.2)) found

/-- The tokens of a leaf with a lookup in double quotes. -/
theorem tokens_lookupTexts (avoids : schema.NamesAvoidDoubleQuotes)
    (leads : schema.LeadsTo text rest field) (allowed : field.allows (.compare relation) = true)
    (quotes : field.QuotesLookup name lookup) :
    (lookupTexts text relation name).subject schema = Token.ofText .field field.name ∧
      (lookupTexts text relation name).relation schema =
        Token.ofText (.comparer relation) relation.keyword ∧
      (lookupTexts text relation name).value schema = field.lookupToken name lookup := by
  have known : Operator.compare relation ≠ .unknown := Operator.noConfusion
  obtain ⟨operatorSlot, inLeaf, expects⟩ :=
    slotToken_behind leads.names known allowed (schema.findExact?_keyword relation)
  have whole := slotToken_of_valid (by rw [operatorSlot]; rfl)
  rw [operatorSlot] at whole
  have subject_eq : (lookupTexts text relation name).subject schema =
      Token.ofText .field field.name := leads.wholeToken_eq
  have relation_eq : (lookupTexts text relation name).relation schema =
      Token.ofText (.comparer relation) relation.keyword := by
    rw [LeafTexts.relation, LeafTexts.behindField, subject_eq]
    exact whole.1.symm
  refine ⟨subject_eq, relation_eq, ?_⟩
  rw [LeafTexts.value, LeafTexts.behindOperator, LeafTexts.behindField, subject_eq, relation_eq]
  exact wholeToken_inDoubleQuotes avoids inLeaf rfl (expects rfl) quotes

/-- The text grammar compiles a lookup in double quotes to its value, or refuses it. -/
theorem compileText_quotedLookup (avoids : schema.NamesAvoidDoubleQuotes)
    (leads : schema.LeadsTo text (comparison relation name) field)
    (allowed : field.allows (.compare relation) = true) (quotes : field.QuotesLookup name lookup) :
    schema.compileText (text ++ comparison relation name) =
      match field.type.cast? lookup.value with
      | some value =>
          .ok (some (.condition ⟨field.type, field.name, .compare relation, value⟩))
      | none => .error (.invalidToken (inDoubleQuotes name)) := by
  have found := found_lookupTexts avoids leads quotes.closed
  have text_eq : text ++ comparison relation name = (lookupTexts text relation name).toText := rfl
  obtain ⟨subject_eq, relation_eq, value_eq⟩ := tokens_lookupTexts avoids leads allowed quotes
  have meant := Condition.ofLeaf_lookupToken leads.canonical relation relation.keyword name lookup
  rw [text_eq]
  cases means : field.type.cast? lookup.value with
  | some value =>
      have isValue : (field.lookupToken name lookup).kind.isValue = true := by
        rw [Field.lookupToken, means]
        rfl
      have belongs : (lookupTexts text relation name).Belongs schema := by
        refine ⟨by rw [subject_eq]; rfl, by rw [relation_eq]; rfl, by rwa [value_eq], ?_⟩
        exact fun _ => nofun
      have node_eq : (lookupTexts text relation name).node schema =
          .leaf (Token.ofText .field field.name)
            (Token.ofText (.comparer relation) relation.keyword)
            (.single (field.lookupToken name lookup)) := by
        rw [LeafTexts.node, subject_eq, relation_eq, LeafTexts.operand, value_eq]
        rfl
      rw [(belongs.compile_eq found).1, node_eq, compileNode, Expression.ofNode, meant, means]
      rfl
  | none =>
      have invalid : firstInvalid? (schema.scan (lookupTexts text relation name).toText) =
          some (Token.invalid (inDoubleQuotes name)) := by
        rw [found.scan_toText, LeafTexts.tokens, subject_eq, relation_eq, value_eq,
          Field.lookupToken, means]
        rfl
      have compiled := schema.compileText_eq (lookupTexts text relation name).toText
      rw [invalid] at compiled
      exact compiled

/-- A lookup in double quotes is compiled to its value by both grammars, whatever its name is, and
refused by both if the value has no meaning. -/
theorem compile_quotedLookup (avoids : schema.NamesAvoidDoubleQuotes)
    (leads : schema.LeadsTo text (comparison relation name) field)
    (allowed : field.allows (.compare relation) = true) (quotes : field.QuotesLookup name lookup) :
    match field.type.cast? lookup.value with
    | some value =>
        schema.compileText (text ++ comparison relation name) =
            .ok (some (.condition ⟨field.type, field.name, .compare relation, value⟩)) ∧
          schema.compileJson
              (.array [.string text, .string relation.name, .string (inDoubleQuotes name)]) =
            .ok (some (.condition ⟨field.type, field.name, .compare relation, value⟩))
    | none =>
        schema.compileText (text ++ comparison relation name) =
            .error (.invalidToken (inDoubleQuotes name)) ∧
          schema.compileJson
              (.array [.string text, .string relation.name, .string (inDoubleQuotes name)]) =
            .error (.invalidValue (inDoubleQuotes name)) := by
  have fromText := compileText_quotedLookup avoids leads allowed quotes
  have fromJson := compileJson_quotedLookup avoids leads allowed quotes
  cases means : field.type.cast? lookup.value with
  | some value =>
      rw [means] at fromText fromJson
      exact ⟨fromText, fromJson⟩
  | none =>
      rw [means] at fromText fromJson
      exact ⟨fromText, fromJson⟩

/-- A field of numbers with a lookup that is named by keywords and marks, and one without a name
whose value is no number. -/
def accessLevel : Field :=
  ⟨"level", "Access level", .single .number, [.compare .anyOf],
    [⟨"not (in), OR", "7"⟩, ⟨"", "high"⟩]⟩

def accessSchema : Schema :=
  ⟨[accessLevel]⟩

theorem compile_quotedLookup_access :
    (accessSchema.NamesAvoidDoubleQuotes ∧
        accessSchema.LeadsTo "access LEVEL" (comparison .anyOf "NOT (in), or") accessLevel ∧
        accessLevel.QuotesLookup "NOT (in), or" ⟨"not (in), OR", "7"⟩ ∧
        accessSchema.LeadsTo "level" (comparison .anyOf "") accessLevel ∧
        accessLevel.QuotesLookup "" ⟨"", "high"⟩) ∧
      ∃ value, accessLevel.type.cast? "7" = some value ∧
        (accessSchema.compileText "access LEVEL in \"NOT (in), or\"" =
            .ok (some (.condition ⟨.single .number, "level", .compare .anyOf, value⟩)) ∧
          accessSchema.compileJson
              (.array [.string "access LEVEL", .string "In", .string "\"NOT (in), or\""]) =
            .ok (some (.condition ⟨.single .number, "level", .compare .anyOf, value⟩))) ∧
        accessSchema.compileText "level in \"\"" = .error (.invalidToken "\"\"") ∧
          accessSchema.compileJson (.array [.string "level", .string "In", .string "\"\""]) =
            .error (.invalidValue "\"\"") := by
  have avoids : accessSchema.NamesAvoidDoubleQuotes := by
    unfold NamesAvoidDoubleQuotes
    decide
  have leads : accessSchema.LeadsTo "access LEVEL" (comparison .anyOf "NOT (in), or")
      accessLevel := by
    constructor
    · decide
    · decide
    · rfl
    · rfl
  have quotes : accessLevel.QuotesLookup "NOT (in), or" ⟨"not (in), OR", "7"⟩ := by
    constructor
    · rfl
    · decide
    · rfl
  have shortLeads : accessSchema.LeadsTo "level" (comparison .anyOf "") accessLevel := by
    constructor
    · decide
    · decide
    · rfl
    · rfl
  have emptyQuotes : accessLevel.QuotesLookup "" ⟨"", "high"⟩ := by
    constructor
    · rfl
    · decide
    · rfl
  have compiled := compile_quotedLookup avoids leads rfl quotes
  have refused := compile_quotedLookup avoids shortLeads rfl emptyQuotes
  exact ⟨⟨avoids, leads, quotes, shortLeads, emptyQuotes⟩, _, rfl, compiled, refused⟩

end Schema

end FilterQuery
