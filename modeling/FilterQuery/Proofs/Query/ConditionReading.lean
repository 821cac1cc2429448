import FilterQuery.Proofs.Expression.OperandText
import FilterQuery.Proofs.Expression.WellTyped
import FilterQuery.Proofs.Query.OperatorText
import FilterQuery.Proofs.Query.Reading

/-!
# Conditions of text queries read back

The text of a condition is read piece by piece: the name of the field, the words of the operator,
and the operands.  What it is read as does not depend on what stands before it, and a fence behind
it stops its last piece.
-/

namespace FilterQuery

open Character Lexicon

/-! ## Operators -/

/-- The words of an operator are found as the operator, if no word goes on behind them.  An operator
that takes an operand may not be followed by an `o`, with which it could become another one. -/
theorem firstMatch?_operatorKeyword {operator : Operator} (known : operator ≠ .unknown)
    {rest : List Char} (breaks : BreaksWord rest)
    (ends : operator.isComparer = true →
      ∀ c ∈ (rest.dropWhile isBlank).head?, sameLetter c 'o' = false) :
    firstMatch? keywordPatterns (operator.keyword.toList ++ rest) =
      some (operator.kind, operator.keyword.toList.length) := by
  have each : ∀ operator ∈ Operator.all,
      operator.keyword.toList.head?.any (!isBlank ·) = true ∧
        wordsRest? operator.words operator.keyword.toList = some [] ∧
        (operator.takesOrEqual = true → operator.isComparer = true) := by
    decide +kernel
  obtain ⟨visible, read, comparer⟩ := each operator (Operator.mem_all known)
  cases shape : operator.keyword.toList with
  | nil => simp [shape] at visible
  | cons first text =>
      rw [shape] at visible read
      apply Operator.firstMatch?_words known (by simpa using visible) read breaks
      intro takesMore left goesOn
      have noOr : (word "or").rest? (rest.dropWhile isBlank) = none := by
        apply Word.rest?_eq_none (by decide)
        intro c begins
        simpa [word] using ends (comparer takesMore) c begins
      rw [orEqual, wordsRest?, noOr] at goesOn
      contradiction

/-- An operand behind a blank does not go on with an operator. -/
theorem Schema.FindsOperand.ends {schema : Schema} {text : List Char}
    (finds : schema.FindsOperand text) (rest : List Char) :
    ∀ c ∈ ((' ' :: (text ++ rest)).dropWhile isBlank).head?, sameLetter c 'o' = false := by
  obtain ⟨first, more, rfl, visible, notO⟩ := finds.begins
  have skipped : (' ' :: (first :: more ++ rest)).dropWhile isBlank = first :: more ++ rest := by
    have blank : isBlank ' ' = true := by decide
    simp [blank, visible]
  rw [skipped]
  rintro c ⟨⟩
  exact notO

theorem Token.toOperator_ofText {operator : Operator} (known : operator ≠ .unknown) (raw : String) :
    (ofText operator.kind raw).kind.isOperator = true ∧
      (ofText operator.kind raw).kind.toOperator = operator :=
  Operator.toOperator_kind known

/-! ## Pieces of a condition -/

namespace Assembly.Agrees

variable {schema : Schema} {context : Context} {pending : List Pending} {current next : Partial}
  {field : Field}

/-- Where a condition begins, the name of a field is read as the field. -/
theorem assemble_field (agrees : (Assembly.mk pending .empty).Agrees schema context)
    {name : String} {kind : TokenKind} {rest : List Char}
    (matched : schema.match? (name.toList ++ rest) = some (kind, name.toList.length))
    (named : kind = .field ∨ kind = .literal) (found : schema.field? name = some field)
    (same : field.name = name) :
    schema.assemble context ⟨pending, .empty⟩ (name.toList ++ rest) =
        schema.assemble (context.push schema (Token.ofText .field name))
          ⟨pending, .field (Token.ofText .field name)⟩ rest ∧
      (Assembly.mk pending (.field (Token.ofText .field name))).Agrees schema
        (context.push schema (Token.ofText .field name)) := by
  have expected : context.expectsField = true := (agrees.fits.expects_of_empty agrees.typed).field
  have fieldToken_eq : schema.fieldToken name = Token.ofText .field name := by
    rw [Schema.fieldToken, found]
    simp only [same]
  have classified : schema.classify context kind (String.ofList name.toList) =
      some (Token.ofText .field name) := by
    rw [String.ofList_toList, ← fieldToken_eq]
    rcases named with rfl | rfl
    · rw [Schema.classify, if_pos expected]
    · rw [Schema.classify, if_pos expected]
  have extended : extend? .empty (Token.ofText .field name) =
      some (.field (Token.ofText .field name)) := rfl
  exact agrees.assemble_piece name.toList matched classified (step_of_extend? extended)

variable (agrees : (Assembly.mk pending current).Agrees schema context)
include agrees

/-- Right behind a field that allows an operator, the words of the operator are read as it. -/
theorem assemble_operator (first : context.last ≠ some .space) {operator : Operator}
    (known : operator ≠ .unknown) (allowed : context.allows operator = true) {rest : List Char}
    (breaks : BreaksWord rest) (ends : operator.isComparer = true →
      ∀ c ∈ (rest.dropWhile isBlank).head?, sameLetter c 'o' = false)
    (extended : extend? current (Token.ofText operator.kind operator.keyword) = some next) :
    schema.assemble context ⟨pending, current⟩ (' ' :: (operator.keyword.toList ++ rest)) =
        schema.assemble (context.push schema (Token.ofText operator.kind operator.keyword))
          ⟨pending, next⟩ rest ∧
      (Assembly.mk pending next).Agrees schema
        (context.push schema (Token.ofText operator.kind operator.keyword)) := by
  have classified : schema.classify context operator.kind
      (String.ofList operator.keyword.toList) =
        some (Token.ofText operator.kind operator.keyword) := by
    rw [String.ofList_toList, Schema.classify_operator known, allowed]
    rfl
  exact agrees.assemble_blank_piece first
    (schema.match?_of_keyword (firstMatch?_operatorKeyword known breaks ends)) classified
    (step_of_extend? extended)

/-- Where a leaf expects a value, the text that is written for one is read as the value. -/
theorem assemble_value (first : context.last ≠ some .space) {operator : Operator}
    (inLeaf : context.InLeaf field operator) (isComparer : operator.isComparer = true)
    (expects : context.Expects false true false) {value : Value} {rest : List Char}
    (reads : field.ReadsOperand schema value) (fence : Fence rest)
    (extended : extend? current ⟨.ofFieldType field.type, value⟩ = some next) :
    schema.assemble context ⟨pending, current⟩ (' ' :: (value.operandText.toList ++ rest)) =
        schema.assemble (context.push schema ⟨.ofFieldType field.type, value⟩)
          ⟨pending, next⟩ rest ∧
      (Assembly.mk pending next).Agrees schema
        (context.push schema ⟨.ofFieldType field.type, value⟩) := by
  obtain ⟨kind, matched, suggests⟩ := reads.found.found rest fence
  have classified : schema.classify context kind (String.ofList value.operandText.toList) =
      some ⟨.ofFieldType field.type, value⟩ := by
    rw [String.ofList_toList, Schema.classify_of_suggestsOperand expects suggests,
      Schema.valueToken_eq inLeaf isComparer reads.means]
  exact agrees.assemble_blank_piece first matched classified (step_of_extend? extended)

/-- Between the values of a list a comma is read as a separator. -/
theorem assemble_comma (rest : List Char)
    (extended : extend? current (schema.separatorToken context) = some next) :
    schema.assemble context ⟨pending, current⟩ (',' :: rest) =
        schema.assemble (schema.separate context) ⟨pending, next⟩ rest ∧
      (Assembly.mk pending next).Agrees schema (schema.separate context) := by
  have classified : schema.classify context .comma "," =
      some (schema.separatorToken context) := rfl
  exact agrees.assemble_piece [','] (schema.match?_comma rest) classified
    (step_of_extend? extended)

end Assembly.Agrees

/-- Behind a value of a list the further values are read one by one. -/
theorem Assembly.Agrees.assemble_others {schema : Schema} {context : Context}
    {pending : List Pending} {subject relation : Token} {operand : Operand} {field : Field}
    {operator : Operator} {others : List Value} {rest : List Char}
    (agrees : (Assembly.mk pending (.leaf subject relation operand)).Agrees schema context)
    (first : context.last ≠ some .space) (inLeaf : context.InLeaf field operator)
    (listed : others ≠ [] → context.allowsSeparator = true)
    (reads : ∀ value ∈ others, field.ReadsOperand schema value) (fence : Fence rest) :
    ∃ behind, behind.last ≠ some .space ∧
      (Assembly.mk pending (.leaf subject relation (operand.extend
        (others.map (Token.mk (.ofFieldType field.type)))))).Agrees schema behind ∧
      schema.assemble context ⟨pending, .leaf subject relation operand⟩
          (Value.writtenBehind others ++ rest) =
        schema.assemble behind ⟨pending, .leaf subject relation (operand.extend
          (others.map (Token.mk (.ofFieldType field.type))))⟩ rest := by
  induction others generalizing context operand with
  | nil => exact ⟨context, first, agrees, rfl⟩
  | cons value others ih =>
      rcases List.forall_mem_cons.mp reads with ⟨readsValue, readsOthers⟩
      have allowed := listed (List.cons_ne_nil value others)
      have takesList : operator.takesList = true := by
        rw [Context.allowsSeparator, inLeaf.operator_eq, Option.any_some, Bool.and_eq_true]
          at allowed
        exact allowed.1
      have isValue : (Token.mk (.ofFieldType field.type) value).kind.isValue = true := rfl
      have text_eq : Value.writtenBehind (value :: others) ++ rest =
          ',' :: ' ' :: (value.operandText.toList ++ (Value.writtenBehind others ++ rest)) := by
        simp [Value.writtenBehind]
      obtain ⟨comma, commaAgrees⟩ := agrees.assemble_comma
        (' ' :: (value.operandText.toList ++ (Value.writtenBehind others ++ rest)))
        (if_pos (Schema.isSeparator_separatorToken allowed))
      have notSpace : (schema.separate context).last ≠ some .space :=
        Schema.last_push_ne_space context (Schema.visible_separatorToken context)
      obtain ⟨valueRead, valueAgrees⟩ := commaAgrees.assemble_value notSpace inLeaf.separate
        (Operator.isComparer_of_takesList takesList) (schema.expects_separate allowed) readsValue
        (Value.fence_writtenBehind others fence) rfl
      obtain ⟨behind, visible, behindAgrees, othersRead⟩ := ih valueAgrees
        (Schema.last_push_ne_space _ TokenKind.noConfusion)
        (inLeaf.separate.push_value schema isValue)
        (fun _ => inLeaf.separate.allowsSeparator schema takesList isValue) readsOthers
      rw [List.map_cons, ← Operand.extend_cons, text_eq]
      exact ⟨behind, visible, behindAgrees, comma.trans (valueRead.trans othersRead)⟩

/-- Behind an operator that compares, all operands of a condition are read. -/
theorem Assembly.Agrees.assemble_operands {schema : Schema} {context : Context}
    {pending : List Pending} {subject relation : Token} {field : Field} {operator : Operator}
    {first : Value} {others : List Value} {rest : List Char}
    (agrees : (Assembly.mk pending (.operator subject relation)).Agrees schema context)
    (notSpace : context.last ≠ some .space) (inLeaf : context.InLeaf field operator)
    (isComparer : operator.isComparer = true) (expects : context.Expects false true false)
    (reads : ∀ value ∈ first :: others, field.ReadsOperand schema value)
    (listed : others ≠ [] → operator.takesList = true) (fence : Fence rest) :
    ∃ behind, behind.last ≠ some .space ∧
      (Assembly.mk pending (.leaf subject relation
        ((Operand.single ⟨.ofFieldType field.type, first⟩).extend
          (others.map (Token.mk (.ofFieldType field.type)))))).Agrees schema behind ∧
      schema.assemble context ⟨pending, .operator subject relation⟩
          (' ' :: (first.operandText.toList ++ (Value.writtenBehind others ++ rest))) =
        schema.assemble behind ⟨pending, .leaf subject relation
          ((Operand.single ⟨.ofFieldType field.type, first⟩).extend
            (others.map (Token.mk (.ofFieldType field.type))))⟩ rest := by
  rcases List.forall_mem_cons.mp reads with ⟨readsFirst, readsOthers⟩
  have isValue : (Token.mk (.ofFieldType field.type) first).kind.isValue = true := rfl
  obtain ⟨firstRead, firstAgrees⟩ := agrees.assemble_value notSpace inLeaf isComparer expects
    readsFirst (Value.fence_writtenBehind others fence) rfl
  obtain ⟨behind, visible, behindAgrees, othersRead⟩ := firstAgrees.assemble_others
    (Schema.last_push_ne_space context TokenKind.noConfusion) (inLeaf.push_value schema isValue)
    (fun several => inLeaf.allowsSeparator schema (listed several) isValue) readsOthers fence
  exact ⟨behind, visible, behindAgrees, firstRead.trans othersRead⟩

/-! ## Conditions -/

namespace Schema

/-- What is at hand behind a text that was read as an expression: a condition that means the
expression when it is joined with the left sides that were put aside meanwhile. -/
structure HasRead (schema : Schema) (pending : List Pending) (sides : List (Node × Token))
    (expression : Expression) (context : Context) (current : Partial) : Prop where
  notSpace : context.last ≠ some .space
  agrees : (Assembly.mk (Assembly.putAside sides ++ pending) current).Agrees schema context
  means : ∃ node, current.finish = .ok (some node) ∧
    Expression.ofNode schema (node.joinBehind sides) = .ok expression

/-- Reading a text leads on to the text behind it with the text read as an expression. -/
def ReadsWith (schema : Schema) (context : Context) (pending : List Pending)
    (text behind : List Char) (sides : List (Node × Token)) (expression : Expression) : Prop :=
  ∃ next current, schema.HasRead pending sides expression next current ∧
    schema.assemble context ⟨pending, .empty⟩ (text ++ behind) =
      schema.assemble next ⟨Assembly.putAside sides ++ pending, current⟩ behind

/-- Wherever a condition may begin, a text is read as an expression in front of another one. -/
def Reads (schema : Schema) (text behind : List Char) (expression : Expression) : Prop :=
  ∀ context pending, (Assembly.mk pending .empty).Agrees schema context →
    ∃ sides, schema.ReadsWith context pending text behind sides expression

/-- A text is read as an expression whole, so that a connective behind it joins all of it. -/
def ReadsWhole (schema : Schema) (text behind : List Char) (expression : Expression) : Prop :=
  ∀ context pending, (Assembly.mk pending .empty).Agrees schema context →
    schema.ReadsWith context pending text behind [] expression

theorem ReadsWhole.reads {schema : Schema} {text behind : List Char} {expression : Expression}
    (reads : schema.ReadsWhole text behind expression) : schema.Reads text behind expression :=
  fun context pending agrees => ⟨[], reads context pending agrees⟩

end Schema

namespace Condition

variable {schema : Schema} {context : Context} {pending : List Pending} {test : Condition}
  {field : Field}

/-- The field and the operator of a condition are read as what the condition has. -/
theorem assemble_head (agrees : (Assembly.mk pending .empty).Agrees schema context)
    {kind : TokenKind} (named : kind = .field ∨ kind = .literal) {rest : List Char}
    (matched : schema.match? (test.field.toList ++
      ' ' :: (test.operator.keyword.toList ++ rest)) = some (kind, test.field.toList.length))
    (found : schema.field? test.field = some field) (leads : test.LeadsTo field)
    (known : test.operator ≠ .unknown) (breaks : BreaksWord rest)
    (ends : test.operator.isComparer = true →
      ∀ c ∈ (rest.dropWhile isBlank).head?, sameLetter c 'o' = false)
    {next : Partial} (extended : Assembly.extend? (.field (Token.ofText .field test.field))
      (Token.ofText test.operator.kind test.operator.keyword) = some next) :
    ∃ behind, behind.last ≠ some .space ∧ behind.InLeaf field test.operator ∧
      behind.previous = some test.operator.kind ∧
      (Assembly.mk pending next).Agrees schema behind ∧
      schema.assemble context ⟨pending, .empty⟩
          (test.field.toList ++ ' ' :: (test.operator.keyword.toList ++ rest)) =
        schema.assemble behind ⟨pending, next⟩ rest := by
  obtain ⟨fieldRead, fieldAgrees⟩ := agrees.assemble_field matched named found leads.name_eq
  have names : (Token.ofText .field test.field).Names schema field := ⟨test.field, rfl, found⟩
  have current := Context.field_push_of_names schema context names
  have behindField : (context.push schema (Token.ofText .field test.field)).previous =
      some .field := Context.previous_push schema context TokenKind.noConfusion
  have allowed : (context.push schema (Token.ofText .field test.field)).allows test.operator =
      true := by
    rw [Context.allows, behindField, current, Option.any_some, leads.allows]
    rfl
  obtain ⟨operatorRead, operatorAgrees⟩ := fieldAgrees.assemble_operator
    (Schema.last_push_ne_space context TokenKind.noConfusion) known allowed breaks ends extended
  obtain ⟨isOperator, toOperator_eq⟩ := Token.toOperator_ofText known test.operator.keyword
  have visible := (TokenKind.ordinary_of_isOperator isOperator).notSpace
  have inLeaf := Context.inLeaf_of_operator schema current isOperator
  rw [toOperator_eq] at inLeaf
  exact ⟨_, Schema.last_push_ne_space _ visible, inLeaf,
    Context.previous_push schema _ visible, operatorAgrees, fieldRead.trans operatorRead⟩

/-- A leaf with the field and the operator of a condition means the condition in normal form, if
its operand does. -/
theorem ofNode_leaf (found : schema.field? test.field = some field) (leads : test.LeadsTo field)
    (known : test.operator ≠ .unknown) {operand : Operand}
    (values : ∀ token ∈ operand.tokens, token.kind.isValue = true)
    (means : operand.value = test.value.norm) :
    Expression.ofNode schema (.leaf (Token.ofText .field test.field)
      (Token.ofText test.operator.kind test.operator.keyword) operand) =
        .ok (.condition test.norm) := by
  have names : (Token.ofText .field test.field).Names schema field := ⟨test.field, rfl, found⟩
  obtain ⟨isOperator, toOperator_eq⟩ := Token.toOperator_ofText known test.operator.keyword
  rw [Expression.ofNode, ofLeaf_eq names isOperator values, toOperator_eq, means, leads.name_eq,
    leads.type_eq]
  rfl

/-- At the start of a condition that can be read back its field is found. -/
theorem exists_match {behind : String} (reads : Place.ReadsBack schema ⟨test, behind⟩)
    {rest : List Char}
    (text_eq : test.display.toList ++ behind.toList = test.field.toList ++ rest) :
    ∃ kind, (kind = .field ∨ kind = .literal) ∧
      schema.match? (test.field.toList ++ rest) = some (kind, test.field.toList.length) := by
  have shape : test.display ++ behind = test.field ++ String.ofList rest :=
    String.toList_inj.mp (by simp [text_eq])
  have matched (kind : TokenKind)
      (found : schema.find? (test.display ++ behind) = some (kind, test.field)) :
      schema.match? (test.field.toList ++ rest) = some (kind, test.field.toList.length) := by
    rw [shape] at found
    have matched := Schema.match?_of_find? found
    rwa [String.toList_ofList] at matched
  rcases reads.named with asField | asLiteral
  · exact ⟨.field, Or.inl rfl, matched .field asField⟩
  · exact ⟨.literal, Or.inr rfl, matched .literal asLiteral⟩

/-- A condition of an operator that takes no operand is read back. -/
theorem readsWhole_of_isPresence (known : test.operator ≠ .unknown)
    (isPresence : test.operator.isPresence = true) {behind : String}
    (reads : Place.ReadsBack schema ⟨test, behind⟩) (fence : Fence behind.toList) :
    schema.ReadsWhole test.display.toList behind.toList (.condition test.norm) := by
  have notComparer := Operator.isComparer_eq_false isPresence
  have text_eq : test.display.toList ++ behind.toList =
      test.field.toList ++ ' ' :: (test.operator.keyword.toList ++ behind.toList) := by
    simp [display, notComparer]
  obtain ⟨field, found, leads⟩ := reads.resolves
  obtain ⟨kind, named, matched⟩ := exists_match reads text_eq
  have extended : Assembly.extend? (.field (Token.ofText .field test.field))
      (Token.ofText test.operator.kind test.operator.keyword) =
        some (.leaf (Token.ofText .field test.field)
          (Token.ofText test.operator.kind test.operator.keyword)
          (.single Token.noOperand)) := by
    cases shape : test.operator with
    | presence _ => rfl
    | compare _ | unknown => simp [shape, Operator.isPresence] at isPresence
  intro context pending agrees
  obtain ⟨next, notSpace, _, _, nextAgrees, read⟩ := assemble_head agrees named matched found leads
    known fence.breaksWord (fun isComparer => by simp [notComparer] at isComparer) extended
  have absent : test.value = .emptyText := reads.absent isPresence
  have values : ∀ token ∈ (Operand.single Token.noOperand).tokens, token.kind.isValue = true := by
    simp [Operand.tokens, Token.noOperand, TokenKind.isValue]
  have meant := ofNode_leaf found leads known values (by rw [absent]; rfl)
  rw [Schema.ReadsWith, text_eq]
  exact ⟨next, _, ⟨notSpace, nextAgrees, _, rfl, meant⟩, read⟩

/-- The operands of a condition are read by the field that its name leads to. -/
theorem readsOperands (avoids : schema.NamesAvoidOperands) {entry : Field}
    (typed : test.Typed entry) (isComparer : test.operator.isComparer = true)
    (leads : test.LeadsTo field) (plain : ∀ value ∈ test.value.operands, value.isPlain = true) :
    ∀ value ∈ test.value.operands, field.ReadsOperand schema value := by
  intro value member
  obtain ⟨raw, read⟩ := typed.fits.means isComparer value member
  rw [← typed.fits.type_eq, ← leads.type_eq] at read
  exact field.readsOperand avoids read (plain value member) (leads.spares isComparer value member)

/-- A condition with several operands has an operator that takes a list. -/
theorem takesList_of_several {entry : Field} (typed : test.Typed entry)
    (isComparer : test.operator.isComparer = true) {first : Value} {others : List Value}
    (operands_eq : test.value.operands = first :: others) (several : others ≠ []) :
    test.operator.takesList = true := by
  rcases test.value.list_or_single with ⟨values, isList⟩ | isSingle
  · have values_eq : values = first :: others := by
      rw [isList] at operands_eq
      exact operands_eq
    apply (typed.fits.listed isComparer values isList).2
    rw [values_eq, List.length_cons]
    exact Nat.succ_le_succ (List.length_pos_iff.mpr several)
  · rw [isSingle] at operands_eq
    cases operands_eq
    contradiction

/-- A condition of an operator that takes an operand is read back. -/
theorem readsWhole_of_isComparer (avoids : schema.NamesAvoidOperands) {entry : Field}
    (typed : test.Typed entry) (isComparer : test.operator.isComparer = true) {behind : String}
    (reads : Place.ReadsBack schema ⟨test, behind⟩) (fence : Fence behind.toList) :
    schema.ReadsWhole test.display.toList behind.toList (.condition test.norm) := by
  obtain ⟨field, found, leads⟩ := reads.resolves
  obtain ⟨first, others, operands_eq, written, value_eq⟩ :=
    test.value.exists_operands typed.nonempty
  have operands := readsOperands avoids typed isComparer leads reads.plain
  rw [operands_eq] at operands
  have text_eq : test.display.toList ++ behind.toList =
      test.field.toList ++ ' ' :: (test.operator.keyword.toList ++
        ' ' :: (first.operandText.toList ++ (Value.writtenBehind others ++ behind.toList))) := by
    simp [display, isComparer, written]
  obtain ⟨kind, named, matched⟩ := exists_match reads text_eq
  have extended : Assembly.extend? (.field (Token.ofText .field test.field))
      (Token.ofText test.operator.kind test.operator.keyword) =
        some (.operator (Token.ofText .field test.field)
          (Token.ofText test.operator.kind test.operator.keyword)) :=
    if_pos (Operator.isComparer_kind isComparer)
  -- The first operand ends the operator: it is neither an `s` at its end nor its next word.
  have breaks : BreaksWord (' ' :: (first.operandText.toList ++
      (Value.writtenBehind others ++ behind.toList))) :=
    breaksWord_cons.mpr (by decide)
  have ends := (operands first List.mem_cons_self).found.ends
    (Value.writtenBehind others ++ behind.toList)
  intro context pending agrees
  obtain ⟨behindHead, notSpace, inLeaf, previous, headAgrees, headRead⟩ := assemble_head agrees
    named matched found leads typed.fits.known breaks (fun _ => ends) extended
  have expects := Context.expects_of_isComparer previous (Operator.isComparer_kind isComparer)
  obtain ⟨next, visible, nextAgrees, operandsRead⟩ := headAgrees.assemble_operands notSpace inLeaf
    isComparer expects operands (takesList_of_several typed isComparer operands_eq) fence
  have values : ∀ token ∈ ((Operand.single ⟨.ofFieldType field.type, first⟩).extend
      (others.map (Token.mk (.ofFieldType field.type)))).tokens, token.kind.isValue = true := by
    rw [Operand.tokens_extend]
    simp [Operand.tokens, TokenKind.ofFieldType, TokenKind.isValue]
  have meant := ofNode_leaf found leads typed.fits.known values (value_eq _)
  rw [Schema.ReadsWith, text_eq]
  exact ⟨next, _, ⟨visible, nextAgrees, _, rfl, meant⟩, headRead.trans operandsRead⟩

/-- A condition that can be read back from its place is read as itself in normal form. -/
theorem readsWhole (avoids : schema.NamesAvoidOperands) {entry : Field} (typed : test.Typed entry)
    {behind : String} (reads : Place.ReadsBack schema ⟨test, behind⟩)
    (fence : Fence behind.toList) :
    schema.ReadsWhole test.display.toList behind.toList (.condition test.norm) := by
  cases shape : test.operator with
  | compare _ =>
      have isComparer : test.operator.isComparer = true := by
        rw [shape]
        rfl
      exact readsWhole_of_isComparer avoids typed isComparer reads fence
  | presence _ =>
      have isPresence : test.operator.isPresence = true := by
        rw [shape]
        rfl
      exact readsWhole_of_isPresence typed.fits.known isPresence reads fence
  | unknown => exact absurd shape typed.fits.known

end Condition

end FilterQuery
