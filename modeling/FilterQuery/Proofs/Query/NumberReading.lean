import FilterQuery.Proofs.Json.PlainNumber
import FilterQuery.Proofs.Lexicon.Operand
import FilterQuery.Proofs.Query.OperandShape

/-!
# Numbers in array queries

A field of numbers takes the JSON numbers that are written without an exponent, each as the number
that it is, and refuses the others by their text.  So of the numbers that a query compiles to, those
of the middle range and zero are read back from an array query, and no others.
-/

namespace FilterQuery

open Lexicon

/-- No name and no label of a schema begins with an ASCII digit or a minus sign. -/
def Schema.NamesAvoidNumbers (schema : Schema) : Prop :=
  ∀ field ∈ schema.fields, field.name.toList.head?.any beginsNumber = false ∧
    field.label.toList.head?.any beginsNumber = false

/-- A text names a field of numbers in array queries, and no lookup stands for a number there. -/
structure Schema.TakesNumbers (schema : Schema) (name : String) (field : Field) : Prop where
  named : schema.slotToken Context.start name TokenKind.isField = Token.ofText .field field.name
  leads : schema.field? field.name = some field
  isNumber : field.type.element = .number
  noLookups : field.values = []

/-- Whether a value is a number that is written in array queries without an exponent. -/
def Value.IsPlainNumber (value : Value) : Prop :=
  ∃ negative x, value = .number (.finite negative x) ∧ x.IsPlain

namespace Schema

variable {schema : Schema} {context : Context} {name : String} {field : Field}
  {operator : Operator} {x : JsonNumber}

theorem TakesNumbers.names (takes : schema.TakesNumbers name field) :
    (Token.ofText .field field.name).Names schema field :=
  ⟨field.name, rfl, takes.leads⟩

/-- A field of numbers without lookups takes what is read as a number without an exponent. -/
theorem TakesNumbers.operand?_eq (takes : schema.TakesNumbers name field) (text : String) :
    field.operand? text = (Binary64.ofPlainChars? text.toList).map .number := by
  rw [field.operand?_of_unnamed]
  · rw [FieldType.cast?, takes.isNumber]
    rfl
  · rw [takes.noLookups]
    exact fun _ => nofun

/-! ## Texts of numbers -/

/-- The text of a plain number is found as a number. -/
theorem findExact?_of_isPlain (avoids : schema.NamesAvoidNumbers) (plain : x.IsPlain) :
    schema.findExact? (String.ofList x.toChars) = some (.value .number) := by
  obtain ⟨⟨negative, text, chars, positional⟩, _⟩ := JsonNumber.toChars_of_isPlain plain
  have literal := firstMatch?_literal_number negative positional
  obtain ⟨first, rest, shape, begins⟩ := exists_of_positional negative positional
  have beginsLiteral := beginsLiteral_of_beginsNumber begins
  obtain ⟨notAlpha, _, _, noKeyword⟩ := facts_of_beginsLiteral beginsLiteral
  have noName := firstMatch?_names_mark avoids rest begins
    (toNat_lt_of_beginsLiteral beginsLiteral) notAlpha
  rw [findExact?_eq_some_iff, String.toList_ofList, chars, match?_eq_or, literal, shape, noName,
    firstMatch?_keywordPatterns_eq_none rest noKeyword]
  rfl

/-- The text of a plain number becomes the token of the number. -/
theorem operandToken_of_isPlain (avoids : schema.NamesAvoidNumbers)
    (takes : schema.TakesNumbers name field) (inLeaf : context.InLeaf field operator)
    (expects : context.Expects false true false) (isComparer : operator.isComparer = true)
    (plain : x.IsPlain) :
    schema.operandToken context (String.ofList x.toChars) =
      ⟨.ofFieldType field.type, .number x.amount⟩ := by
  have found := findExact?_of_isPlain avoids plain
  apply operandToken_eq inLeaf expects isComparer _ _ (Or.inr ⟨_, found⟩)
  · rw [takes.operand?_eq, String.toList_ofList, (JsonNumber.toChars_of_isPlain plain).2]
    rfl
  · intro kind foundKind
    rw [found] at foundKind
    cases foundKind
    rfl

/-- Any other text of a number is refused. -/
theorem operandToken_of_not_isPlain (within : context.Within schema)
    (takes : schema.TakesNumbers name field) (inLeaf : context.InLeaf field operator)
    (isComparer : operator.isComparer = true) (notPlain : ¬ x.IsPlain) :
    schema.operandToken context (String.ofList x.toChars) =
      Token.invalid (String.ofList x.toChars) := by
  have refused : (schema.operandToken context (String.ofList x.toChars)).isInvalid = true := by
    rw [← Bool.not_eq_false]
    intro valid
    have means := operand?_of_operandToken inLeaf isComparer valid
    rw [takes.operand?_eq, String.toList_ofList,
      JsonNumber.ofPlainChars?_toChars_eq_none notPlain] at means
    contradiction
  have readFrom := readFrom_operandToken within (String.ofList x.toChars)
  generalize schema.operandToken context (String.ofList x.toChars) = token at refused readFrom ⊢
  cases readFrom with
  | verbatim kind =>
      have kind_eq : kind = .invalid := Token.kind_eq_of_isInvalid refused
      rw [kind_eq]
      rfl
  | field _ _ | value _ _ _ => contradiction

/-! ## Leaves -/

/-- A leaf with a number compiles to the condition on the number if that is plain, and is refused by
the text of the number otherwise. -/
theorem compileJson_number (avoids : schema.NamesAvoidNumbers)
    (takes : schema.TakesNumbers name field) {relation : Comparer} {written : String}
    (found : schema.findExact? written = some (.comparer relation))
    (allowed : field.allows (.compare relation) = true) (x : JsonNumber) :
    (x.IsPlain → schema.compileJson (.array [.string name, .string written, .number x]) =
        .ok (some (.condition
          ⟨field.type, field.name, .compare relation, .number x.amount⟩))) ∧
      (¬ x.IsPlain → schema.compileJson (.array [.string name, .string written, .number x]) =
        .error (.invalidValue (String.ofList x.toChars))) := by
  obtain ⟨relation_eq, inLeaf, expects⟩ :=
    @slotToken_behind _ _ _ takes.names (.compare relation) Operator.noConfusion allowed _ found
  have within := ((Context.within_start schema).push (Token.ofText .field field.name)).push
    (Token.ofText (Operator.compare relation).kind written)
  have text_eq : (Json.number x).scalarText = .ok (String.ofList x.toChars) := rfl
  have leaf := schema.compileJson_leaf name written (schema.arrayOperand_of_scalarText _ text_eq)
  rw [takes.named, relation_eq] at leaf
  rw [leaf]
  constructor
  · intro plain
    have values : ∀ token ∈ (Operand.single ⟨.ofFieldType field.type, .number x.amount⟩).tokens,
        token.kind.isValue = true := List.forall_mem_singleton.mpr rfl
    rw [operandToken_of_isPlain avoids takes inLeaf (expects rfl) rfl plain,
      Condition.ofLeaf_eq takes.names rfl values]
    rfl
  · intro notPlain
    rw [operandToken_of_not_isPlain within takes inLeaf rfl notPlain, Condition.ofLeaf,
      takes.names.toField_eq]
    rfl

/-- A field of numbers takes every plain number back. -/
theorem takesBack_of_isPlainNumber (avoids : schema.NamesAvoidNumbers)
    (takes : schema.TakesNumbers name field) (isComparer : operator.isComparer = true)
    {value : Value} (plain : value.IsPlainNumber) : schema.TakesBack field operator value := by
  obtain ⟨negative, magnitude, rfl, isPlain⟩ := plain
  have isPlain : (JsonNumber.float negative magnitude).IsPlain := isPlain
  exact ⟨_, rfl, fun context inLeaf expects =>
    operandToken_of_isPlain avoids takes inLeaf expects isComparer isPlain⟩

/-- A number is plain if a field of numbers takes its text for it. -/
theorem TakesNumbers.isPlainNumber (takes : schema.TakesNumbers name field) {raw text : String}
    {value : Value} (read : field.type.cast? raw = some value)
    (written : value.toJson.scalarText = .ok text) (means : field.operand? text = some value) :
    value.IsPlainNumber := by
  rw [FieldType.cast?, takes.isNumber] at read
  obtain ⟨amount, _, rfl⟩ := Option.map_eq_some_iff.mp read
  rw [takes.operand?_eq] at means
  cases amount with
  | finite negative magnitude =>
      refine ⟨negative, magnitude, rfl, ?_⟩
      by_contra notPlain
      have unread := @JsonNumber.ofPlainChars?_toChars_eq_none (.float negative magnitude) notPlain
      cases written
      rw [String.toList_ofList, unread] at means
      contradiction
  | nan | infinite _ =>
      cases written
      contradiction

end Schema

/-! ## Conditions -/

namespace Json

theorem operandTexts_of_scalarText {value : Json} {text : String}
    (read : value.scalarText = .ok text) : value.operandTexts = [text] := by
  cases value with
  | array _ | object _ => contradiction
  | _ =>
      cases read
      rfl

end Json

namespace Value

theorem exists_scalarText {value : Value} (notList : ∀ values, value ≠ .list values) :
    ∃ text, value.toJson.scalarText = .ok text := by
  cases value with
  | list values => exact absurd rfl (notList values)
  | number amount => cases amount <;> exact ⟨_, rfl⟩
  | _ => exact ⟨_, rfl⟩

/-- The texts of an operand are those of its values, one by one. -/
theorem forall₂_operandTexts {value : Value}
    (flat : ∀ single ∈ value.operands, ∀ values, single ≠ .list values) :
    List.Forall₂ (fun single text => single.toJson.scalarText = .ok text) value.operands
      value.toJson.operandTexts := by
  rcases value.list_or_single with ⟨values, rfl⟩ | isSingle
  · rw [toJson, toJsonEach_eq_map]
    change List.Forall₂ _ values ((values.map toJson).filterMap (·.scalarText.toOption))
    rw [operands] at flat
    induction values with
    | nil => exact .nil
    | cons single rest ih =>
        obtain ⟨notList, others⟩ := List.forall_mem_cons.mp flat
        obtain ⟨text, read⟩ := exists_scalarText notList
        rw [List.map_cons, List.filterMap_cons, read]
        exact .cons read (ih others)
  · rw [isSingle, List.forall_mem_singleton] at flat
    obtain ⟨text, read⟩ := exists_scalarText flat
    rw [isSingle, Json.operandTexts_of_scalarText read]
    exact .cons read .nil

end Value

namespace Schema

variable {schema : Schema} {field : Field} {test : Condition} {query : Json}
  {expression : Expression}

/-- An array query compiles to what its tree does. -/
theorem compileJson_eq_ok_some_iff :
    schema.compileJson query = .ok (some expression) ↔
      ∃ node, Node.ofJson schema query = .ok node ∧
        Expression.ofNode schema node = .ok expression := by
  constructor
  · intro compiled
    obtain ⟨node, read, meant⟩ := @Source.exists_tree_of_compile _ (.value query) _ compiled
    exact ⟨node, Node.ofQuery_eq_ok_some_iff.mp (mapError_eq_ok_iff.mp read), meant⟩
  · rintro ⟨node, read, meant⟩
    rw [compileJson, Node.ofQuery_eq_ok_some_iff.mpr read]
    change (Expression.ofNode schema node).map some = _
    rw [meant]
    rfl

/-- A condition on a field of numbers that is read back has plain numbers as operands only. -/
theorem isPlainNumber_of_compileJson (takes : schema.TakesNumbers field.name field)
    (fits : test.Fits field) (isComparer : test.operator.isComparer = true)
    (compiled : schema.compileJson test.toJson = .ok (some (.condition test))) :
    ∀ value ∈ test.value.operands, value.IsPlainNumber := by
  obtain ⟨node, read, meant⟩ := @Source.exists_tree_of_compile _ (.value test.toJson) _ compiled
  have typed := Source.typed_of_tree read meant
  have readFrom := @Source.readFrom_of_json? _ (.value test.toJson) test.toJson _ rfl read typed
  have compiles : List.Forall₂ (WrittenLeaf.CompilesTo schema)
      [⟨test.field, test.value.toJson.operandTexts, test.value.toJson.isArray⟩] [test] :=
    Expression.compilesTo_of_readFrom readFrom typed meant
  obtain ⟨⟨named, other, found, leads, means⟩, _⟩ := List.forall₂_cons.mp compiles
  rw [fits.field_eq, takes.leads, Option.some.injEq] at found
  rw [← found, takes.leads, Option.some.injEq] at leads
  rw [← leads] at means
  have written : List.Forall₂ (fun value text => value.toJson.scalarText = .ok text)
      test.value.operands test.value.toJson.operandTexts := by
    apply Value.forall₂_operandTexts
    rintro value member values rfl
    obtain ⟨raw, read⟩ := fits.means isComparer _ member
    exact ValueType.cast?_ne_list _ raw values read
  have readAgain : List.Forall₂ (fun value again => ∃ text, value.toJson.scalarText = .ok text ∧
      field.operand? text = some again) test.value.operands test.value.operands :=
    forall₂_comp (fun _ text _ isWritten isMeant => ⟨text, isWritten, isMeant⟩) written
      (means.compares isComparer)
  intro value member
  obtain ⟨raw, read⟩ := fits.means isComparer value member
  obtain ⟨text, isWritten, isMeant⟩ := List.forall₂_same.mp readAgain value member
  exact takes.isPlainNumber read isWritten isMeant

/-- A condition on a field of numbers is read back from its array exactly if its operands are plain
numbers. -/
theorem compileJson_condition_iff (avoids : schema.NamesAvoidNumbers)
    (takes : schema.TakesNumbers field.name field) (fits : test.Fits field)
    (isComparer : test.operator.isComparer = true) :
    schema.compileJson test.toJson = .ok (some (.condition test)) ↔
      ∀ value ∈ test.value.operands, value.IsPlainNumber := by
  constructor
  · exact isPlainNumber_of_compileJson takes fits isComparer
  · intro plain
    rw [compileJson_eq_ok_some_iff]
    have found : schema.field? test.field = some field := by
      rw [fits.field_eq, takes.leads]
    have subject : schema.slotToken Context.start test.field TokenKind.isField =
        Token.ofText .field test.field := by
      rw [fits.field_eq, takes.named]
    apply Condition.ofJson_of_takesBack fits _ found ⟨rfl, rfl, rfl, rfl⟩ subject
    · exact fun isComparer value member =>
        takesBack_of_isPlainNumber avoids takes isComparer (plain value member)
    · intro isPresence
      rw [Operator.isPresence_eq_false isComparer] at isPresence
      contradiction

end Schema

/-! ## Expressions -/

namespace Expression

variable {schema : Schema} {expression : Expression}

theorem conditionsAmong_eq_flatMap (expressions : List Expression) :
    conditionsAmong expressions = expressions.flatMap conditions := by
  induction expressions with
  | nil => rfl
  | cons expression rest ih => rw [conditionsAmong, ih, List.flatMap_cons]

/-- The expressions of a list are read back one by one. -/
theorem isReadBack_of_ofJsonEach {expressions : List Expression} {nodes : List Node}
    (read : Node.ofJsonEach schema (toJsonEach expressions) = .ok nodes)
    (compiled : ofNodes schema nodes = .ok expressions) :
    ∀ expression ∈ expressions, expression.IsReadBack schema := by
  induction expressions generalizing nodes with
  | nil => exact fun _ => nofun
  | cons expression rest ih =>
      obtain ⟨node, others, readFirst, readRest, rfl⟩ := Node.ofJsonEach_cons_eq_ok_iff.mp read
      obtain ⟨first, more, compiledFirst, compiledRest, same⟩ := ofNodes_cons_eq_ok_iff.mp compiled
      cases same
      exact List.forall_mem_cons.mpr ⟨⟨node, readFirst, compiledFirst⟩, ih readRest compiledRest⟩

/-- A connective is read back exactly if each of its children is. -/
theorem isReadBack_logic_iff {connective : Logic} (known : connective ≠ .unknown)
    {children : List Expression} (nonempty : children ≠ []) :
    (logic connective children).IsReadBack schema ↔
      ∀ child ∈ children, child.IsReadBack schema := by
  refine ⟨?_, isReadBack_logic known nonempty⟩
  rintro ⟨node, read, compiled⟩
  obtain ⟨first, rest, rfl⟩ := List.exists_cons_of_ne_nil nonempty
  obtain ⟨isLogic, _⟩ := ofConnective_name known
  rw [toJson, toJsonEach, Node.ofJson] at read
  simp only [Json.stringContent, bind, Except.bind] at read
  split at read
  · contradiction
  · next nodes readEach =>
      cases read
      obtain ⟨parts, compiledParts, same⟩ := ofNode_logic_eq_ok isLogic compiled
      obtain ⟨_, rfl⟩ := logic.inj same
      exact isReadBack_of_ofJsonEach readEach compiledParts

/-- A well typed expression is read back exactly if each of its conditions is. -/
theorem isReadBack_iff (wellTyped : expression.WellTyped schema) :
    expression.IsReadBack schema ↔
      ∀ test ∈ expression.conditions, (condition test).IsReadBack schema := by
  induction wellTyped with
  | condition _ => rw [conditions, List.forall_mem_singleton]
  | logic holds _ ih =>
      rw [isReadBack_logic_iff holds.1 holds.2, conditions, conditionsAmong_eq_flatMap]
      simp only [List.mem_flatMap]
      constructor
      · rintro each test ⟨child, member, inChild⟩
        exact (ih child member).mp (each child member) test inChild
      · intro each child member
        exact (ih child member).mpr fun test inChild => each test ⟨child, member, inChild⟩

end Expression

/-- What compiles is read back exactly if each of its conditions is. -/
theorem Source.compileJson_toJson_iff {schema : Schema} {source : Source} {expression : Expression}
    (compiled : source.compile schema = .ok (some expression)) :
    schema.compileJson expression.toJson = .ok (some expression) ↔
      ∀ test ∈ expression.conditions,
        schema.compileJson test.toJson = .ok (some (.condition test)) := by
  rw [Schema.compileJson_eq_ok_some_iff]
  simp only [Schema.compileJson_eq_ok_some_iff]
  exact Expression.isReadBack_iff (wellTyped_of_compile compiled).1

/-- In a schema whose names do not begin like numbers, a leaf of an array query on a field of numbers
compiles with every JSON number that is written without an exponent, and is refused by the text of
the number with every other one.  Of what a query compiles to, exactly those expressions are read
back of which each condition is, and a condition on a field of numbers is read back exactly if its
operands are numbers that are written without an exponent. -/
theorem Schema.compileJson_numbers {schema : Schema} (avoids : schema.NamesAvoidNumbers) :
    (∀ (name : String) (field : Field) (relation : Comparer) (written : String) (x : JsonNumber),
      schema.TakesNumbers name field → schema.findExact? written = some (.comparer relation) →
      field.allows (.compare relation) = true →
      (x.IsPlain → schema.compileJson (.array [.string name, .string written, .number x]) =
        .ok (some (.condition
          ⟨field.type, field.name, .compare relation, .number x.amount⟩))) ∧
      (¬ x.IsPlain → schema.compileJson (.array [.string name, .string written, .number x]) =
        .error (.invalidValue (String.ofList x.toChars)))) ∧
    (∀ (source : Source) (expression : Expression),
      source.compile schema = .ok (some expression) →
      (schema.compileJson expression.toJson = .ok (some expression) ↔
        ∀ test ∈ expression.conditions,
          schema.compileJson test.toJson = .ok (some (.condition test)))) ∧
    (∀ (field : Field) (test : Condition), schema.TakesNumbers field.name field →
      test.Fits field → test.operator.isComparer = true →
      (schema.compileJson test.toJson = .ok (some (.condition test)) ↔
        ∀ value ∈ test.value.operands, value.IsPlainNumber)) :=
  ⟨fun _ _ _ _ x takes found allowed => compileJson_number avoids takes found allowed x,
    fun _ _ compiled => Source.compileJson_toJson_iff compiled,
    fun _ _ takes fits isComparer => compileJson_condition_iff avoids takes fits isComparer⟩

/-- A field of numbers. -/
def countField : Field :=
  ⟨"n", "", .single .number, [.compare .equal], []⟩

def countSchema : Schema :=
  ⟨[countField]⟩

/-- The condition that the field equals a number. -/
def countTest (negative : Bool) (x : Magnitude) : Condition :=
  ⟨.single .number, "n", .compare .equal, .number (.finite negative x)⟩

/-- The magnitude of one fourth. -/
def quarter : Magnitude := ⟨4598175219545276416, by decide⟩

theorem isPlain_quarter : quarter.IsPlain := by
  have significand_eq : quarter.significand = 4503599627370496 := by decide
  have exponent_eq : quarter.exponent = -54 := by decide
  right
  rw [Magnitude.toRat, significand_eq, exponent_eq]
  norm_num

theorem not_isPlain_plainLimit : ¬ Magnitude.plainLimit.IsPlain := by
  rintro (rank_zero | ⟨_, below⟩)
  · contradiction
  · exact absurd below (not_lt.mpr Magnitude.ten_zpow_le_plainLimit)

theorem countSchema_namesAvoidNumbers : countSchema.NamesAvoidNumbers := by
  unfold Schema.NamesAvoidNumbers
  decide

theorem countSchema_takesNumbers : countSchema.TakesNumbers countField.name countField where
  named := rfl
  leads := rfl
  isNumber := rfl
  noLookups := rfl

theorem countTest_fits (negative : Bool) (x : Magnitude) :
    (countTest negative x).Fits countField where
  type_eq := rfl
  field_eq := rfl
  known := Operator.noConfusion
  allows := rfl
  means _ := by
    refine List.forall_mem_singleton.mpr ⟨String.ofList (Binary64.finite negative x).toChars, ?_⟩
    change (Binary64.ofPlainChars? _).map Value.number = _
    rw [String.toList_ofList, Binary64.ofPlainChars?_toChars, Option.map_some]
    rfl
  listed _ _ := nofun

theorem Schema.compileJson_numbers_count :
    countSchema.NamesAvoidNumbers ∧ countSchema.TakesNumbers "n" countField ∧
      quarter.IsPlain ∧ ¬ Magnitude.plainLimit.IsPlain ∧
      countSchema.compileJson (.array [.string "n", .string "=", .number (.integer (-3))]) =
        .ok (some (.condition
          ⟨.single .number, "n", .compare .equal, .number (.ofDecimal true ⟨3, 0⟩)⟩)) ∧
      countSchema.compileJson (countTest true quarter).toJson =
        .ok (some (.condition (countTest true quarter))) ∧
      countSchema.compileJson (countTest false .plainLimit).toJson =
        .error (.invalidValue "1e+16") ∧
      ¬ ∀ value ∈ (countTest false .plainLimit).value.operands, value.IsPlainNumber := by
  obtain ⟨leaf, expressions, conditions⟩ := compileJson_numbers countSchema_namesAvoidNumbers
  have symbol : countSchema.findExact? "=" = some (.comparer .equal) := by decide
  have word : countSchema.findExact? "Equal" = some (.comparer .equal) := by decide
  have text : String.ofList (JsonNumber.float false .plainLimit).toChars = "1e+16" := by decide
  have read := (leaf "n" countField .equal "Equal" (.float true quarter) countSchema_takesNumbers
    word rfl).1 isPlain_quarter
  have refused := (leaf "n" countField .equal "Equal" (.float false .plainLimit)
    countSchema_takesNumbers word rfl).2 not_isPlain_plainLimit
  rw [text] at refused
  refine ⟨countSchema_namesAvoidNumbers, countSchema_takesNumbers, isPlain_quarter,
    not_isPlain_plainLimit, ?_, ?_, refused, ?_⟩
  · exact (leaf "n" countField .equal "=" (.integer (-3)) countSchema_takesNumbers symbol rfl).1
      trivial
  · exact (expressions (.value (countTest true quarter).toJson) _ read).mpr
      (List.forall_mem_singleton.mpr read)
  · rw [← conditions countField _ countSchema_takesNumbers (countTest_fits false _) rfl]
    intro compiled
    cases refused.symm.trans compiled

/-- A field of numbers does not take every finite JSON number, and not every expression with finite
numbers is read back. -/
theorem Schema.not_forall_numbers_taken :
    (¬ ∀ (schema : Schema) (name : String) (field : Field) (relation : Comparer) (x : JsonNumber),
      schema.NamesAvoidNumbers → schema.TakesNumbers name field →
      field.allows (.compare relation) = true →
      (∃ negative magnitude, x.amount = .finite negative magnitude) →
      schema.compileJson (.array [.string name, .string relation.name, .number x]) =
        .ok (some (.condition
          ⟨field.type, field.name, .compare relation, .number x.amount⟩))) ∧
    ¬ ∀ (schema : Schema) (query : String) (expression : Expression), schema.NamesAvoidNumbers →
      (∀ field ∈ schema.fields, schema.TakesNumbers field.name field) →
      schema.compileText query = .ok (some expression) →
      (∀ test ∈ expression.conditions, ∀ value ∈ test.value.operands, value.isPlain = true) →
      schema.compileJson expression.toJson = .ok (some expression) := by
  constructor
  · intro claimed
    have word : countSchema.findExact? "Equal" = some (.comparer .equal) := by decide
    have refused := (compileJson_number countSchema_namesAvoidNumbers countSchema_takesNumbers word
      rfl (.float false .plainLimit)).2 not_isPlain_plainLimit
    have taken := claimed countSchema "n" countField .equal (.float false .plainLimit)
      countSchema_namesAvoidNumbers countSchema_takesNumbers rfl ⟨_, _, rfl⟩
    cases refused.symm.trans taken
  · intro claimed
    have unread : ((countSchema.compileText "n = 10000000000000000").toOption.bind id).any
        (fun expression =>
          (expression.conditions.all fun test => test.value.operands.all Value.isPlain) &&
            (countSchema.compileJson expression.toJson).toOption.isNone) = true := by
      decide +kernel
    obtain ⟨expression, compiled⟩ := Source.exists_of_isSome_compile countSchema
      (.written .text "n = 10000000000000000") (by decide +kernel)
    have compiled : countSchema.compileText "n = 10000000000000000" = .ok (some expression) :=
      compiled
    rw [compiled] at unread
    simp only [Except.toOption, Option.bind_some, id, Option.any_some, Bool.and_eq_true,
      List.all_eq_true] at unread
    have readBack := claimed countSchema _ expression countSchema_namesAvoidNumbers
      (List.forall_mem_singleton.mpr countSchema_takesNumbers) compiled unread.1
    rw [readBack] at unread
    cases unread.2

end FilterQuery
