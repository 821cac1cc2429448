import FilterQuery.Proofs.Node.Grammar
import FilterQuery.Proofs.Query.TextPieces
import FilterQuery.Proofs.Query.WrittenLeaf

/-!
# The leaves of text queries

The leaves of a text query are found without its tree: every field begins a leaf, and the operands
up to the next field belong to it.  By the grammar of token lists these are the leaves of the tree,
in the same order.
-/

namespace FilterQuery

/-- The operands in front of the first field of some readings, and the leaves from there on. -/
def leavesBehind : List (String × Token) → List String × List WrittenLeaf
  | [] => ([], [])
  | (raw, token) :: rest =>
      let (operands, leaves) := leavesBehind rest
      if token.kind.isField then
        ([], ⟨raw, operands, decide (2 ≤ operands.length)⟩ :: leaves)
      else if token.kind.isValue then (raw :: operands, leaves)
      else (operands, leaves)

/-- The leaves of a text query in reading order. -/
def Schema.textLeaves (schema : Schema) (text : String) : List WrittenLeaf :=
  (leavesBehind (schema.readings text)).2

variable {schema : Schema} {latest : Option Field} {raw : String} {token : Token}
  {readings behind : List (String × Token)}

theorem leavesBehind_field (isField : token.kind.isField = true) :
    leavesBehind ((raw, token) :: behind) =
      ([], ⟨raw, (leavesBehind behind).1, decide (2 ≤ (leavesBehind behind).1.length)⟩ ::
        (leavesBehind behind).2) := by
  simp only [leavesBehind, isField, if_true]

theorem leavesBehind_value (isValue : token.kind.isValue = true) :
    leavesBehind ((raw, token) :: behind) =
      (raw :: (leavesBehind behind).1, (leavesBehind behind).2) := by
  have notField : token.kind.isField = false := by
    cases shape : token.kind <;> rw [shape] at isValue <;> first | rfl | contradiction
  simp only [leavesBehind, notField, isValue, if_true, Bool.false_eq_true, if_false]

/-- Tokens that are neither fields nor operands do not count. -/
theorem leavesBehind_other (neither : token.kind.isField = false ∧ token.kind.isValue = false) :
    leavesBehind ((raw, token) :: behind) = leavesBehind behind := by
  simp only [leavesBehind, neither, Bool.false_eq_true, if_false]

theorem leavesBehind_visible (readings : List (String × Token)) :
    leavesBehind (readings.filter (·.2.kind != .space)) = leavesBehind readings := by
  induction readings with
  | nil => rfl
  | cons reading rest ih =>
      obtain ⟨raw, token⟩ := reading
      rw [List.filter_cons]
      split
      · simp only [leavesBehind, ih]
      · next isSpace =>
          have kind_eq : token.kind = .space := by simpa using isSpace
          rw [ih, leavesBehind_other (by rw [kind_eq]; exact ⟨rfl, rfl⟩)]

/-! ## Leaves -/

theorem exists_of_map_snd_eq_cons {tokens : List Token}
    (same : readings.map Prod.snd = token :: tokens) :
    ∃ raw rest, readings = (raw, token) :: rest ∧ rest.map Prod.snd = tokens := by
  obtain ⟨reading, rest, rfl, rfl, rest_eq⟩ := List.map_eq_cons_iff.mp same
  exact ⟨reading.1, rest, rfl, rest_eq⟩

/-- The further values of a leaf are read from the texts behind their separators. -/
theorem SeparatedValues.readBehind {tokens values : List Token}
    (written : SeparatedValues tokens values) (same : readings.map Prod.snd = tokens)
    (read : Readings schema latest (readings ++ behind))
    (fresh : (leavesBehind behind).1 = []) :
    ∃ texts, leavesBehind (readings ++ behind) = (texts, (leavesBehind behind).2) ∧
      List.Forall₂ (fun text token => token.ReadBehind latest text) texts values := by
  induction written generalizing readings with
  | nil =>
      rw [List.map_eq_nil_iff] at same
      rw [same, List.nil_append]
      exact ⟨[], Prod.ext fresh rfl, .nil⟩
  | @cons separator value tokens values isSeparator isValue others ih =>
      obtain ⟨mark, afterMark, rfl, sameMark⟩ := exists_of_map_snd_eq_cons same
      obtain ⟨raw, rest, rfl, sameRest⟩ := exists_of_map_snd_eq_cons sameMark
      have neither := TokenKind.neither_of_isSeparator isSeparator
      obtain ⟨readValue, readRest⟩ := (read.of_neither neither).of_value isValue
      obtain ⟨texts, leaves_eq, readTexts⟩ := ih sameRest readRest
      refine ⟨raw :: texts, ?_, .cons readValue readTexts⟩
      rw [List.cons_append, List.cons_append, leavesBehind_other neither,
        leavesBehind_value isValue, leaves_eq]

namespace Node

/-- Behind an operator that takes no operand there are none: it takes missing operands only, and no
text is read as one. -/
theorem nothing_of_isPresence {subject relation : Token} {values : List Token}
    {texts : List String}
    (typed : (leaf subject relation ((Operand.single Token.noOperand).extend values)).Typed schema)
    (isPresence : relation.kind.isPresence = true)
    (read : List.Forall₂ (fun text token => token.ReadBehind latest text) texts values) :
    texts = [] ∧ values = [] := by
  cases typed with
  | leaf field names asks fits =>
      have absent := fits.absent (TokenKind.toOperator_of_isPresence isPresence)
      rw [Operand.tokens_extend] at absent
      cases read with
      | nil => exact ⟨rfl, rfl⟩
      | @cons text value _ _ readValue _ =>
          have missing := absent value (by simp [Operand.tokens])
          exact absurd missing readValue.1

/-- A leaf of a text query is read from the texts of its tokens. -/
theorem WrittenAsLeaf.readFrom {node : Node} {tokens : List Token}
    (written : node.WrittenAsLeaf tokens) (typed : node.Typed schema)
    (same : readings.map Prod.snd = tokens)
    (read : Readings schema latest (readings ++ behind))
    (fresh : (leavesBehind behind).1 = []) :
    ∃ leaves, leavesBehind (readings ++ behind) = ([], leaves ++ (leavesBehind behind).2) ∧
      List.Forall₂ (Leaf.ReadFrom schema) leaves node.leaves := by
  cases written with
  | @compare subject relation value tokens values isField isComparer isValue others =>
      obtain ⟨raw, afterField, rfl, sameField⟩ := exists_of_map_snd_eq_cons same
      obtain ⟨operator, afterOperator, rfl, sameOperator⟩ := exists_of_map_snd_eq_cons sameField
      obtain ⟨text, rest, rfl, sameRest⟩ := exists_of_map_snd_eq_cons sameOperator
      have neither : relation.kind.isField = false ∧ relation.kind.isValue = false :=
        TokenKind.neither_of_isOperator (by rw [TokenKind.isOperator, isComparer, Bool.true_or])
      obtain ⟨named, found, rfl, readOperator⟩ := read.of_field isField
      obtain ⟨readFirst, readRest⟩ := (readOperator.of_neither neither).of_value isValue
      obtain ⟨texts, leaves_eq, readTexts⟩ := others.readBehind sameRest readRest fresh
      refine ⟨[⟨raw, text :: texts, decide (2 ≤ (text :: texts).length)⟩], ?_,
        .cons ⟨⟨named, found, rfl⟩, ?_, ?_, ?_⟩ .nil⟩
      · simp only [List.cons_append, leavesBehind_field isField, leavesBehind_other neither,
          leavesBehind_value isValue, leaves_eq, List.nil_append]
      · intro isPresence
        rw [Operator.isPresence_eq_false (TokenKind.toOperator_of_isComparer isComparer)]
          at isPresence
        contradiction
      · rintro _ field ⟨name, sameName, leads⟩
        cases sameName
        rw [Operand.tokens_extend]
        refine (List.Forall₂.cons readFirst readTexts).imp ?_
        rintro text token ⟨_, latest, latest_eq, means⟩
        rw [leads, Option.some.injEq] at latest_eq
        rw [latest_eq]
        exact means
      · rw [decide_eq_true_iff, List.length_cons, readTexts.length_eq]
        cases values with
        | nil => simp [Operand.extend]
        | cons second others => simp [Operand.extend]
  | @presence subject relation tokens values isField isPresence others =>
      obtain ⟨raw, afterField, rfl, sameField⟩ := exists_of_map_snd_eq_cons same
      obtain ⟨operator, rest, rfl, sameRest⟩ := exists_of_map_snd_eq_cons sameField
      have neither : relation.kind.isField = false ∧ relation.kind.isValue = false :=
        TokenKind.neither_of_isOperator (by rw [TokenKind.isOperator, isPresence, Bool.or_true])
      obtain ⟨named, found, rfl, readOperator⟩ := read.of_field isField
      obtain ⟨texts, leaves_eq, readTexts⟩ :=
        others.readBehind sameRest (readOperator.of_neither neither) fresh
      obtain ⟨rfl, rfl⟩ := nothing_of_isPresence typed isPresence readTexts
      refine ⟨[⟨raw, [], false⟩], ?_, .cons ⟨⟨named, found, rfl⟩, by simp, ?_, ?_⟩ .nil⟩
      · simp only [List.cons_append, leavesBehind_field isField, leavesBehind_other neither,
          leaves_eq, List.nil_append, List.length_nil]
        rfl
      · intro isComparer
        rw [Operator.isComparer_eq_false (TokenKind.toOperator_of_isPresence isPresence)]
          at isComparer
        contradiction
      · simp [Operand.extend]

/-- The leaves of a writing are read from its texts, in order, and take nothing of what follows. -/
theorem WrittenAs.readFrom {form : Writing} {node : Node} {tokens : List Token}
    (written : node.WrittenAs form tokens) (typed : node.Typed schema)
    (same : readings.map Prod.snd = tokens)
    (read : Readings schema latest (readings ++ behind))
    (fresh : (leavesBehind behind).1 = []) :
    ∃ leaves, leavesBehind (readings ++ behind) = ([], leaves ++ (leavesBehind behind).2) ∧
      List.Forall₂ (Leaf.ReadFrom schema) leaves node.leaves := by
  induction written generalizing readings behind latest with
  | leaf written => exact written.readFrom typed same read fresh
  | @group opening closing node tokens opens closes inner ih =>
      obtain ⟨opened, rest, rfl, sameRest⟩ := exists_of_map_snd_eq_cons same
      obtain ⟨inside, last, rfl, sameInside, sameLast⟩ := List.map_eq_append_iff.mp sameRest
      obtain ⟨closed, nothing, rfl, sameNothing⟩ := exists_of_map_snd_eq_cons sameLast
      cases List.map_eq_nil_iff.mp sameNothing
      have opensOther : opening.kind.isField = false ∧ opening.kind.isValue = false := by
        rw [opens]
        exact ⟨rfl, rfl⟩
      have closesOther : closing.kind.isField = false ∧ closing.kind.isValue = false := by
        rw [closes]
        exact ⟨rfl, rfl⟩
      have skipped : leavesBehind ((closed, closing) :: behind) = leavesBehind behind :=
        leavesBehind_other closesOther
      rw [List.cons_append] at read
      rw [List.cons_append, leavesBehind_other opensOther, List.append_assoc, ← skipped]
      apply ih typed sameInside
      · rw [← List.append_assoc]
        exact read.of_neither opensOther
      · rw [List.singleton_append, skipped]
        exact fresh
  | single written ih => exact ih typed same read fresh
  | @join left right connective front back isLogic leftWritten rightWritten leftRead rightRead =>
      obtain ⟨before, rest, rfl, sameBefore, sameRest⟩ := List.map_eq_append_iff.mp same
      obtain ⟨joined, after, rfl, sameAfter⟩ := exists_of_map_snd_eq_cons sameRest
      have neither := TokenKind.neither_of_isLogic isLogic
      have typedEach : left.Typed schema ∧ right.Typed schema := by
        cases typed with
        | logic _ _ typed => exact ⟨typed left (by simp), typed right (by simp)⟩
      rw [List.append_assoc, List.cons_append] at read
      rw [List.append_assoc, List.cons_append]
      obtain ⟨later, readJoined⟩ := read.exists_behind
      obtain ⟨rightLeaves, right_eq, rightFrom⟩ :=
        rightRead typedEach.2 sameAfter (readJoined.of_neither neither) fresh
      have joined_eq : leavesBehind ((joined, connective) :: (after ++ behind)) =
          ([], rightLeaves ++ (leavesBehind behind).2) :=
        (leavesBehind_other neither).trans right_eq
      obtain ⟨leftLeaves, left_eq, leftFrom⟩ :=
        leftRead typedEach.1 sameBefore read (congrArg Prod.fst joined_eq)
      refine ⟨leftLeaves ++ rightLeaves, ?_, ?_⟩
      · rw [left_eq, joined_eq, List.append_assoc]
      · rw [Node.join, Node.leaves, leavesAmong, leavesAmong, leavesAmong, List.append_nil]
        exact List.rel_append leftFrom rightFrom

end Node

namespace Source

variable {source : Source} {node : Node} {expression : Expression}

/-- The leaves of a text query are read from its texts. -/
theorem readFrom_of_text {text : String}
    (read : (written .text text).tree schema = .ok (some node)) (typed : node.Typed schema) :
    List.Forall₂ (Leaf.ReadFrom schema) (schema.textLeaves text) node.leaves := by
  have written := Node.ofTokens_eq_ok_some_iff.mp read
  have visible := (Readings.of_readings schema text).visible
  rw [← List.append_nil (List.filter _ _)] at visible
  have same : ((schema.readings text).filter (·.2.kind != .space)).map Prod.snd =
      visibleTokens (schema.scan text) := by
    rw [← schema.map_snd_readings, visibleTokens, List.filter_map]
    rfl
  obtain ⟨leaves, leaves_eq, readFrom⟩ := written.readFrom typed same visible rfl
  have textLeaves_eq : schema.textLeaves text = leaves := by
    rw [List.append_nil, leavesBehind_visible] at leaves_eq
    rw [Schema.textLeaves, leaves_eq]
    exact List.append_nil leaves
  rw [textLeaves_eq]
  exact readFrom

/-- The leaves of a query as they are written, whichever grammar it is written in. -/
def writtenLeaves (schema : Schema) : Source → List WrittenLeaf
  | written .text text => schema.textLeaves text
  | source => (source.json?.map Json.writtenLeaves).getD []

/-- Every condition of a compiled expression means what the leaf in its place is written as. -/
theorem compilesTo_of_compile (compiled : source.compile schema = .ok (some expression)) :
    List.Forall₂ (WrittenLeaf.CompilesTo schema) (source.writtenLeaves schema)
      expression.conditions := by
  obtain ⟨node, read, meant⟩ := exists_tree_of_compile compiled
  have typed := typed_of_tree read meant
  refine Expression.compilesTo_of_readFrom ?_ typed meant
  cases source with
  | written grammar text =>
      cases grammar with
      | text => exact readFrom_of_text read typed
      | array =>
          cases parsed : Json.parse text with
          | error error =>
              rw [tree, Schema.readArrayQuery, parsed] at read
              contradiction
          | ok query =>
              have isJson : (written .array text).json? = some query := by
                rw [json?, parsed]
                rfl
              rw [writtenLeaves, isJson]
              · exact readFrom_of_json? isJson read typed
              · simp
  | value query => exact readFrom_of_json? rfl read typed

end Source

end FilterQuery
