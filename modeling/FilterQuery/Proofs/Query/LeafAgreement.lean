import FilterQuery.Proofs.Node.Leaf
import FilterQuery.Proofs.Query.TextAgreement

/-!
# One leaf in both grammars

A leaf is written in the text grammar as its field, its operator and its values, with blanks and
commas between them, and in the array grammar as an array of the same pieces.  As long as the
pattern table finds exactly these pieces in the text, both queries mean the same or both are
refused, whatever the pieces are.
-/

namespace FilterQuery

open Character

/-- The values of a leaf in the text grammar. -/
def valuesText (first : String) : List String → String
  | [] => first
  | second :: others => first ++ (", " ++ valuesText second others)

/-- The pattern table finds exactly the values of a leaf, each at the start of what is left. -/
def Schema.FindsValues (schema : Schema) (first : String) : List String → Prop
  | [] => schema.Finds first ""
  | second :: others =>
      schema.Finds first (", " ++ valuesText second others) ∧ schema.FindsValues second others

namespace LeafTexts

variable {schema : Schema} {texts : LeafTexts}

/-- The leaf in the text grammar. -/
def toText (texts : LeafTexts) : String :=
  texts.field ++ (" " ++ (texts.operator ++ (" " ++ valuesText texts.first texts.others)))

/-- The pattern table finds exactly the pieces of a leaf, each at the start of what is left. -/
structure Found (schema : Schema) (texts : LeafTexts) : Prop where
  field : schema.Finds texts.field
    (" " ++ (texts.operator ++ (" " ++ valuesText texts.first texts.others)))
  operator : schema.Finds texts.operator (" " ++ valuesText texts.first texts.others)
  values : schema.FindsValues texts.first texts.others

end LeafTexts

namespace Schema

variable {schema : Schema}

/-- Values that are found one behind the other are pieces. -/
theorem FindsValues.isPiece {first : String} {others : List String}
    (finds : schema.FindsValues first others) :
    schema.IsPiece first ∧ ∀ raw ∈ others, schema.IsPiece raw := by
  induction others generalizing first with
  | nil => exact ⟨Finds.isPiece finds breaksWord_nil, by simp⟩
  | cons second others ih =>
      obtain ⟨secondPiece, othersPieces⟩ := ih finds.2
      exact ⟨finds.1.isPiece (breaksWord_comma _),
        List.forall_mem_cons.mpr ⟨secondPiece, othersPieces⟩⟩

/-- Scanning the values of a leaf yields the tokens of the values and of their separators. -/
theorem scanFrom_values {context : Context} {first : String} {others : List String}
    (notBlank : context.last ≠ some .space) (finds : schema.FindsValues first others) :
    schema.scanFrom context (' ' :: (valuesText first others).toList) =
      Token.blank :: schema.wholeToken context first ::
        (schema.separatedValues (context.push schema (schema.wholeToken context first))
          others).flatMap fun pair => [pair.1, Token.blank, pair.2] := by
  induction others generalizing first context with
  | nil =>
      have scanned := schema.scanFrom_blank_piece notBlank finds breaksWord_nil
      rw [String.append_empty] at scanned
      rw [valuesText, scanned, String.toList_empty, scanFrom_nil]
      rfl
  | cons second others ih =>
      have scanned := schema.scanFrom_blank_piece notBlank finds.1 (breaksWord_comma _)
      have comma : (", " ++ valuesText second others).toList =
          ',' :: ' ' :: (valuesText second others).toList := by
        rw [String.toList_append]
        rfl
      have behindComma : (schema.separate
          (context.push schema (schema.wholeToken context first))).last ≠ some .space :=
        schema.last_push_ne_space _ (schema.visible_separatorToken _)
      rw [valuesText, scanned, comma, scanFrom_comma, ih behindComma finds.2]
      rfl

end Schema

namespace LeafTexts

variable {schema : Schema} {texts : LeafTexts}

theorem Found.pieces (found : texts.Found schema) : texts.Pieces schema where
  field := found.field.isPiece (breaksWord_blank _)
  operator := found.operator.isPiece (breaksWord_blank _)
  first := found.values.isPiece.1
  others := found.values.isPiece.2

/-- Scanning a leaf yields the tokens of its pieces. -/
theorem Found.scan_toText (found : texts.Found schema) :
    schema.scan texts.toText = texts.tokens schema := by
  have blank (rest : String) : (" " ++ rest).toList = ' ' :: rest.toList := by
    rw [String.toList_append]
    rfl
  have behindField : (texts.behindField schema).last ≠ some .space :=
    schema.last_push_ne_space Context.start (found.pieces.field.visible _)
  have behindOperator : (texts.behindOperator schema).last ≠ some .space :=
    schema.last_push_ne_space (texts.behindField schema) (found.pieces.operator.visible _)
  rw [Schema.scan, toText, schema.scanFrom_piece Context.start found.field (breaksWord_blank _),
    ← subject, ← LeafTexts.behindField, blank,
    schema.scanFrom_blank_piece behindField found.operator (breaksWord_blank _), ← relation,
    ← LeafTexts.behindOperator, blank, schema.scanFrom_values behindOperator found.values]
  rfl

/-! ## Leaves that compile -/

/-- The tokens of a leaf are sound when all are valid, the last ends a condition and as many groups
are closed as are opened. -/
structure Sound (schema : Schema) (texts : LeafTexts) : Prop where
  valid : ∀ token ∈ texts.tokens schema, token.isInvalid = false
  finished : endsUnfinished (texts.tokens schema) = false
  balanced : countKind .openGroup (texts.tokens schema) =
    countKind .closeGroup (texts.tokens schema)

theorem Found.sound_of_compileText {result : Option Expression} (found : texts.Found schema)
    (compiled : schema.compileText texts.toText = .ok result) : texts.Sound schema := by
  rcases (schema.compileText_eq_ok_iff texts.toText).mp ⟨result, compiled⟩ with
    ⟨valid, finished, balanced⟩
  rw [found.scan_toText] at valid finished balanced
  refine ⟨?_, finished, balanced⟩
  intro token member
  rw [Bool.eq_false_iff]
  exact List.find?_eq_none.mp valid token member

namespace Sound

theorem accepted (sound : texts.Sound schema) {context : Context} {raw : String}
    (member : schema.wholeToken context raw ∈ texts.tokens schema) :
    Accepts schema context (schema.wholeToken context raw) := by
  rcases schema.judged_wholeToken context raw with isInvalid | accepted
  · rw [sound.valid _ member] at isInvalid
    contradiction
  · exact accepted

theorem accepted_subject (sound : texts.Sound schema) :
    Accepts schema Context.start (texts.subject schema) :=
  sound.accepted (by simp [tokens, subject])

theorem accepted_relation (sound : texts.Sound schema) :
    Accepts schema (texts.behindField schema) (texts.relation schema) :=
  sound.accepted (by simp [tokens, relation])

theorem accepted_value (sound : texts.Sound schema) :
    Accepts schema (texts.behindOperator schema) (texts.value schema) :=
  sound.accepted (by simp [tokens, value])

/-- Behind the first value a separator is only accepted if the value is an operand. -/
theorem isValue_of_others (sound : texts.Sound schema) (pieces : texts.Pieces schema)
    (several : texts.others ≠ []) : (texts.value schema).kind.isValue = true := by
  cases shape : texts.others with
  | nil => contradiction
  | cons second rest =>
      have member : schema.separatorToken (texts.behindValue schema) ∈ texts.tokens schema := by
        simp [tokens, pairs, shape, Schema.separatedValues]
      rcases schema.separatorToken_cases (texts.behindValue schema) with ⟨_, allowed⟩ | isInvalid
      · rw [Context.allowsSeparator, pieces.previous_behindValue, Bool.and_eq_true] at allowed
        exact allowed.2
      · rw [sound.valid _ member] at isInvalid
        contradiction

/-- A leaf does not begin with a parenthesis, which it would leave open. -/
theorem isField_subject (sound : texts.Sound schema) (pieces : texts.Pieces schema) :
    (texts.subject schema).kind.isField = true := by
  have start : Context.start.Expects true false false := by constructor <;> rfl
  rcases sound.accepted_subject.of_expects_field (pieces.field.visible _) start with
    ⟨field, names⟩ | opens
  · rw [names.kind_eq]
    rfl
  · have behind := pieces.previous_behindField
    have behindRelation := pieces.previous_behindOperator
    rw [opens] at behind
    have relationOpens := sound.accepted_relation.of_expects_field (pieces.operator.visible _)
      (Context.expects_of_isBeforeField behind rfl)
    have expects : ∃ field, (texts.behindOperator schema).Expects field false false := by
      rcases relationOpens with ⟨field, names⟩ | opens
      · rw [names.kind_eq] at behindRelation
        exact ⟨false, Context.expects_of_isField behindRelation rfl⟩
      · rw [opens] at behindRelation
        exact ⟨true, Context.expects_of_isBeforeField behindRelation rfl⟩
    rcases expects with ⟨_, expects⟩
    by_cases single : texts.others = []
    · have relation_ne : (texts.relation schema).kind ≠ .closeGroup := by
        rcases relationOpens with ⟨field, names⟩ | opens
        · rw [names.kind_eq]
          exact TokenKind.noConfusion
        · rw [opens]
          exact TokenKind.noConfusion
      have value_ne : (texts.value schema).kind ≠ .closeGroup := by
        intro closes
        have complete := sound.accepted_value.isComplete_of_closeGroup closes
        rw [expects.complete] at complete
        contradiction
      have balanced := sound.balanced
      simp [tokens, pairs, single, Schema.separatedValues, countKind, List.countP_cons, opens,
        relation_ne, value_ne, Token.blank, Token.ofText] at balanced
    · have judged := schema.judged_wholeToken (texts.behindOperator schema) texts.first
      have expected := (judged.expected_of_isValue (sound.isValue_of_others pieces single)).1
      rw [expects.value] at expected
      contradiction

theorem kind_subject (sound : texts.Sound schema) (pieces : texts.Pieces schema) :
    (texts.subject schema).kind = .field := by
  have isField := sound.isField_subject pieces
  cases shape : (texts.subject schema).kind <;> simp_all [TokenKind.isField]

theorem isOperator_relation (sound : texts.Sound schema) (pieces : texts.Pieces schema) :
    (texts.relation schema).kind.isOperator = true := by
  have behind := pieces.previous_behindField
  rw [sound.kind_subject pieces] at behind
  rcases sound.accepted_relation.of_behind_field (pieces.operator.visible _) behind with
    ⟨_, _, asks⟩
  exact asks.1

/-- A leaf does not go on behind an operator that takes no operand. -/
theorem isValue_value (sound : texts.Sound schema) (pieces : texts.Pieces schema) :
    (texts.value schema).kind.isValue = true := by
  have isOperator := sound.isOperator_relation pieces
  have behind := pieces.previous_behindOperator
  cases relation_eq : (texts.relation schema).kind with
  | comparer comparer =>
      rw [relation_eq] at behind
      rcases sound.accepted_value.of_expects_value (pieces.first.visible _)
        (Context.expects_of_isComparer behind rfl) with ⟨_, _, means⟩
      exact means.isValue
  | presence test =>
      have latest : (texts.behindOperator schema).operator = some (.presence test) := by
        rw [behindOperator, Context.operator_push, relation_eq]
        rfl
      have none_open : (texts.behindOperator schema).opened = 0 := by
        rw [behindOperator, Context.opened_push, behindField, Context.opened_push, relation_eq,
          sound.kind_subject pieces]
        rfl
      rw [relation_eq] at behind
      rcases sound.accepted_value.of_behind_presence (pieces.first.visible _) behind latest with
        isLogic | ⟨_, some_open⟩
      · by_cases single : texts.others = []
        · have finished := sound.finished
          have last : lastVisible? (texts.tokens schema) = some (texts.value schema) := by
            have visible := pieces.first.visible (texts.behindOperator schema)
            rw [← value] at visible
            simp [tokens, pairs, single, Schema.separatedValues, lastVisible?, visible]
          rw [endsUnfinished, last, Option.any_some, TokenKind.awaitsMore, isLogic,
            Bool.or_true] at finished
          contradiction
        · exact sound.isValue_of_others pieces single
      · rw [none_open] at some_open
        exact absurd some_open (Nat.not_lt_zero _)
  | _ =>
      rw [relation_eq] at isOperator
      contradiction

theorem isValue_pairs (sound : texts.Sound schema) (pieces : texts.Pieces schema) :
    ∀ pair ∈ texts.pairs schema, pair.2.kind.isValue = true := by
  intro pair member
  obtain ⟨before, raw, inOthers, separator, value⟩ := Schema.exists_of_mem_separatedValues member
  obtain ⟨separatorMember, valueMember⟩ := mem_tokens_of_mem_pairs member
  rw [separator] at separatorMember
  rw [value] at valueMember
  rcases schema.separatorToken_cases before with ⟨comma, _⟩ | isInvalid
  · have behind := schema.previous_separate before
    rw [comma] at behind
    rcases (sound.accepted valueMember).of_expects_value ((pieces.others raw inOthers).visible _)
      (Context.expects_of_isSeparator behind rfl) with ⟨_, _, means⟩
    rw [value]
    exact means.isValue
  · rw [sound.valid _ separatorMember] at isInvalid
    contradiction

/-- The text grammar only compiles a leaf if every token belongs in its slot. -/
theorem belongs (sound : texts.Sound schema) (pieces : texts.Pieces schema) :
    texts.Belongs schema where
  field := sound.isField_subject pieces
  operator := sound.isOperator_relation pieces
  first := sound.isValue_value pieces
  others := sound.isValue_pairs pieces

end Sound

/-- The array grammar only compiles a leaf if every token belongs in its slot. -/
theorem Pieces.belongs_of_compileJson {result : Option Expression} (pieces : texts.Pieces schema)
    (compiled : schema.compileJson texts.toJson = .ok result) : texts.Belongs schema := by
  have compile_eq : schema.compileJson texts.toJson =
      ((Node.ofQuery schema texts.toJson).mapError .malformed).bind schema.compileNode := rfl
  rw [compile_eq] at compiled
  cases read : Node.ofQuery schema texts.toJson with
  | error cause =>
      rw [read] at compiled
      contradiction
  | ok tree =>
      rw [read] at compiled
      cases tree with
      | none =>
          rw [ofQuery_toJson] at read
          cases leaf : schema.arrayLeaf (.string texts.field) (.string texts.operator)
            texts.operandJson <;> simp [leaf, Except.map] at read
      | some tree =>
          have reports := Expression.reportsOn_ofNode (Node.filled_of_ofQuery read)
          cases meant : Expression.ofNode schema tree with
          | error error =>
              simp [Except.mapError, Except.bind, Schema.compileNode, meant, Except.map] at compiled
          | ok expression =>
              rw [meant] at reports
              apply pieces.belongs_of_ofQuery read
              exact isInvalid_of_firstFault? reports.firstFault?_eq_none

/-- A leaf whose tokens belong in their slots means in either grammar what its tokens mean. -/
theorem Belongs.compile_eq (belongs : texts.Belongs schema) (found : texts.Found schema) :
    schema.compileText texts.toText = schema.compileNode (some (texts.node schema)) ∧
      schema.compileJson texts.toJson = schema.compileNode (some (texts.node schema)) := by
  have text_eq : schema.compileText texts.toText =
      (Node.ofTokens (schema.scan texts.toText)).bind schema.compileNode := rfl
  have json_eq : schema.compileJson texts.toJson =
      ((Node.ofQuery schema texts.toJson).mapError .malformed).bind schema.compileNode := rfl
  rw [text_eq, json_eq, found.scan_toText, belongs.ofTokens_eq,
    belongs.ofQuery_toJson_eq found.pieces]
  exact ⟨rfl, rfl⟩

/-- A leaf of pieces that the pattern table finds compiles to the same expression in both grammars,
or in neither. -/
theorem compileText_agrees_with_compileJson {schema : Schema} {texts : LeafTexts}
    (found : texts.Found schema) :
    (∃ expression, schema.compileText texts.toText = .ok (some expression) ∧
        schema.compileJson texts.toJson = .ok (some expression)) ∨
      (∃ textError, schema.compileText texts.toText = .error textError) ∧
        ∃ jsonError, schema.compileJson texts.toJson = .error jsonError := by
  by_cases belongs : texts.Belongs schema
  · obtain ⟨text_eq, json_eq⟩ := belongs.compile_eq found
    rw [text_eq, json_eq, Schema.compileNode]
    cases Expression.ofNode schema (texts.node schema) with
    | ok expression => exact Or.inl ⟨expression, rfl, rfl⟩
    | error error => exact Or.inr ⟨⟨error, rfl⟩, error, rfl⟩
  · apply Or.inr
    constructor
    · cases compiled : schema.compileText texts.toText with
      | ok result =>
          exact absurd ((found.sound_of_compileText compiled).belongs found.pieces) belongs
      | error error => exact ⟨error, rfl⟩
    · cases compiled : schema.compileJson texts.toJson with
      | ok result => exact absurd (found.pieces.belongs_of_compileJson compiled) belongs
      | error error => exact ⟨error, rfl⟩

/-- A schema of tickets, whose states have names. -/
def ticketSchema : Schema :=
  ⟨[⟨"state", "Ticket State", .single .string, [.compare .equal, .compare .noneOf],
    [⟨"done", "closed"⟩]⟩]⟩

/-- A leaf with a label, an operator of two words, a lookup and a text in quotes. -/
def ticketLeaf : LeafTexts :=
  ⟨"ticket state", "NOT  in", "done", ["'on hold'"]⟩

/-- What the leaf means. -/
def ticketTest : Condition :=
  ⟨.single .string, "state", .compare .noneOf, .list [.text "closed", .text "on hold"]⟩

theorem compileText_agrees_with_compileJson_ticket :
    ticketLeaf.Found ticketSchema ∧
      ticketSchema.compileText ticketLeaf.toText = .ok (some (.condition ticketTest)) ∧
      ticketSchema.compileJson ticketLeaf.toJson = .ok (some (.condition ticketTest)) := by
  have found : ticketLeaf.Found ticketSchema := by
    refine ⟨?_, ?_, ?_, ?_⟩
    · unfold Schema.Finds
      decide
    · unfold Schema.Finds
      decide
    · unfold Schema.Finds
      decide
    · unfold Schema.FindsValues Schema.Finds
      decide
  have compiled : ticketSchema.compileJson ticketLeaf.toJson =
      .ok (some (.condition ticketTest)) := rfl
  rcases compileText_agrees_with_compileJson found with
    ⟨expression, fromText, fromJson⟩ | ⟨_, error, refused⟩
  · rw [compiled] at fromJson
    cases fromJson
    exact ⟨found, fromText, compiled⟩
  · rw [compiled] at refused
    contradiction

end LeafTexts

end FilterQuery
