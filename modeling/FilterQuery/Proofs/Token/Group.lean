import FilterQuery.Proofs.Lexicon.Fence
import FilterQuery.Proofs.Token.Expectation
import FilterQuery.Proofs.Token.Piece

/-!
# Text in a group

Between parentheses a text is classified as it is on its own.  The contexts differ: in a group the
latest token at the start is the parenthesis, the field and the operator may be left over from
before, and more groups are open.  But nothing is accepted that would look at what is left over.
-/

namespace FilterQuery

/-- A context encloses another when it tells of the same tokens behind an opening parenthesis. -/
structure Context.Encloses (outer inner : Context) : Prop where
  previous : outer.previous = inner.previous.or (some .openGroup)
  last : outer.last = some .space ↔ inner.last = some .space
  /-- Where a field is expected, the latest one does not matter. -/
  field : inner.expectsField = true ∨ outer.field = inner.field
  /-- Where a field or an operator is expected, the latest operator does not matter. -/
  operator : inner.expectsField = true ∨ inner.previous = some .field ∨
    outer.operator = inner.operator
  opened : inner.opened + outer.closed < outer.opened + inner.closed

namespace Context

variable {schema : Schema} {outer inner : Context}

/-- A group encloses the start of its content. -/
theorem encloses_start (schema : Schema) (token : Token) (opens : token.kind = .openGroup)
    (balanced : outer.closed ≤ outer.opened) :
    (outer.push schema token).Encloses Context.start where
  previous := by
    rw [previous_push schema outer (by rw [opens]; exact TokenKind.noConfusion), opens]
    rfl
  last := by
    rw [last_push, opens]
    simp [start]
  field := Or.inl rfl
  operator := Or.inl rfl
  opened := by
    rw [opened_push, closed_push, opens]
    simp only [start, if_true, reduceCtorEq, if_false]
    omega

namespace Encloses

variable (encloses : outer.Encloses inner)
include encloses

theorem expectsField_eq : outer.expectsField = inner.expectsField := by
  rw [expectsField, expectsField, encloses.previous]
  cases inner.previous <;> rfl

theorem expectsValue_eq : outer.expectsValue = inner.expectsValue := by
  rw [expectsValue, expectsValue, encloses.previous]
  cases inner.previous <;> rfl

theorem isComplete_eq : outer.isComplete = inner.isComplete := by
  rw [isComplete, isComplete, encloses.previous]
  cases inner.previous <;> rfl

/-- Right behind a field both contexts tell of the same one. -/
theorem field_eq (behind : inner.previous = some .field) : outer.field = inner.field := by
  apply encloses.field.resolve_left
  rw [(expects_of_isField behind rfl).field]
  exact Bool.false_ne_true

/-- Where a value is expected or a condition is complete, nothing that matters is left over. -/
theorem settled (later : inner.expectsValue = true ∨ inner.isComplete = true) :
    outer.field = inner.field ∧ outer.operator = inner.operator := by
  have expectsNoField : inner.expectsField ≠ true := by
    intro expected
    cases behind : inner.previous with
    | none => simp [expectsValue, isComplete, behind] at later
    | some kind =>
        have before : kind.isBeforeField = true := by
          simpa [expectsField, behind] using expected
        have expects := expects_of_isBeforeField behind before
        simp [expects.value, expects.complete] at later
  have notField : inner.previous ≠ some .field := by
    intro behind
    have expects := expects_of_isField behind rfl
    simp [expects.value, expects.complete] at later
  exact ⟨encloses.field.resolve_left expectsNoField,
    (encloses.operator.resolve_left expectsNoField).resolve_left notField⟩

theorem valueToken_eq (expected : inner.expectsValue = true) (raw : String) :
    outer.valueToken raw = inner.valueToken raw := by
  obtain ⟨sameField, sameOperator⟩ := encloses.settled (Or.inl expected)
  rw [valueToken, valueToken, sameField, takesOperand, takesOperand, sameOperator]

theorem allows_eq (operator : Operator) : outer.allows operator = inner.allows operator := by
  rw [allows, allows, encloses.previous]
  cases behind : inner.previous with
  | none => rfl
  | some kind =>
      by_cases isField : kind = .field
      · rw [isField] at behind
        rw [encloses.field_eq behind]
        rfl
      · simp [beq_eq_false_iff_ne.mpr isField]

theorem allowsSeparator_eq : outer.allowsSeparator = inner.allowsSeparator := by
  have same : outer.previous.any (·.isValue) = inner.previous.any (·.isValue) := by
    rw [encloses.previous]
    cases inner.previous <;> rfl
  rw [allowsSeparator, allowsSeparator, same]
  cases behindValue : inner.previous.any (·.isValue) with
  | false => simp
  | true =>
      rcases (Option.any_eq_true _ _).mp behindValue with ⟨kind, behind, isValue⟩
      rw [(encloses.settled (Or.inr (expects_of_isValue behind isValue).complete)).2]

/-- What closes a group on its own closes one in a group as well. -/
theorem allowsClose (allowed : inner.allowsClose = true) : outer.allowsClose = true := by
  simp only [Context.allowsClose, Bool.and_eq_true, decide_eq_true_eq,
    encloses.isComplete_eq] at allowed ⊢
  have opened := encloses.opened
  exact ⟨by omega, allowed.2⟩

/-- A text that is accepted on its own is accepted as the same token in a group. -/
theorem classify {kind : TokenKind} {raw : String} {token : Token}
    (classified : schema.classify inner kind raw = some token)
    (valid : token.isInvalid = false) : schema.classify outer kind raw = some token := by
  cases kind with
  | space =>
      simp only [Schema.classify, encloses.last] at classified ⊢
      exact classified
  | invalid => exact classified
  | field | literal =>
      simp only [Schema.classify, encloses.expectsField_eq, encloses.expectsValue_eq]
        at classified ⊢
      split
      · next expected => rwa [if_pos expected] at classified
      · next unexpected =>
          rw [if_neg unexpected] at classified
          split
          · next expected =>
              rw [if_pos expected] at classified
              rwa [encloses.valueToken_eq expected]
          · next refused => rwa [if_neg refused] at classified
  | noOperand | value _ =>
      simp only [Schema.classify, encloses.expectsValue_eq] at classified ⊢
      split
      · next expected =>
          rw [if_pos expected] at classified
          rwa [encloses.valueToken_eq expected]
      · next refused => rwa [if_neg refused] at classified
  | comparer relation => rwa [Schema.classify, encloses.allows_eq]
  | presence test => rwa [Schema.classify, encloses.allows_eq]
  | and | or => rwa [Schema.classify, encloses.isComplete_eq]
  | openGroup => rwa [Schema.classify, encloses.expectsField_eq]
  | comma | slash => rwa [Schema.classify, encloses.allowsSeparator_eq]
  | closeGroup =>
      cases classified
      cases allowed : inner.allowsClose with
      | true => rw [Schema.classify, encloses.allowsClose allowed]
      | false =>
          rw [allowed] at valid
          contradiction

/-- A blank that is passed over on its own is passed over in a group. -/
theorem classify_none {kind : TokenKind} {raw : String}
    (passed : schema.classify inner kind raw = none) :
    kind = .space ∧ schema.classify outer kind raw = none := by
  by_cases isSpace : kind = .space
  · subst isSpace
    refine ⟨rfl, ?_⟩
    simp only [Schema.classify, encloses.last] at passed ⊢
    exact passed
  · obtain ⟨token, classified, _⟩ := schema.classify_visible inner raw isSpace
    rw [passed] at classified
    contradiction

/-- An accepted token leaves the contexts apart by the group alone. -/
theorem push {token : Token} (accepted : Accepts schema inner token) :
    (outer.push schema token).Encloses (inner.push schema token) := by
  by_cases isSpace : token.kind = .space
  · rw [push_space schema outer isSpace, push_space schema inner isSpace]
    exact ⟨encloses.previous, Iff.rfl, encloses.field, encloses.operator, encloses.opened⟩
  have outerPrevious := previous_push schema outer isSpace
  have innerPrevious := previous_push schema inner isSpace
  -- Behind something settled a token that is no field and no operator leaves both as they are.
  have later (settles : inner.expectsValue = true ∨ inner.isComplete = true)
      (notField : token.kind ≠ .field) (notOperator : token.kind.isOperator = false) :
      (outer.push schema token).field = (inner.push schema token).field ∧
        (outer.push schema token).operator = (inner.push schema token).operator := by
    obtain ⟨sameField, sameOperator⟩ := encloses.settled settles
    rw [field_push, field_push, operator_push, operator_push, if_neg notField, if_neg notField,
      notOperator, sameField, sameOperator]
    exact ⟨rfl, rfl⟩
  have expectsField (before : token.kind.isBeforeField = true) :
      (inner.push schema token).expectsField = true :=
    (expects_of_isBeforeField innerPrevious before).field
  have both : ((inner.push schema token).expectsField = true ∨
        (outer.push schema token).field = (inner.push schema token).field) ∧
      ((inner.push schema token).expectsField = true ∨
        (inner.push schema token).previous = some .field ∨
        (outer.push schema token).operator = (inner.push schema token).operator) := by
    cases accepted with
    | space shape => contradiction
    | field field expected names =>
        refine ⟨Or.inr ?_, Or.inr (Or.inl ?_)⟩
        · rw [field_push_of_names schema outer names, field_push_of_names schema inner names]
        · rw [innerPrevious, names.kind_eq]
    | operator field behind current asks =>
        have ordinary := TokenKind.ordinary_of_isOperator asks.1
        refine ⟨Or.inr ?_, Or.inr (Or.inr ?_)⟩
        · rw [field_push, field_push, if_neg ordinary.notField, if_neg ordinary.notField,
            encloses.field_eq behind]
        · rw [operator_push, operator_push, if_pos asks.1, if_pos asks.1]
    | value field expected takes current means =>
        have ordinary := TokenKind.ordinary_of_isValue means.isValue
        obtain ⟨sameField, sameOperator⟩ :=
          later (Or.inl expected) ordinary.1.notField ordinary.2
        exact ⟨Or.inr sameField, Or.inr (Or.inr sameOperator)⟩
    | separator isSeparator allowed =>
        have ordinary := TokenKind.ordinary_of_isSeparator isSeparator
        obtain ⟨sameField, sameOperator⟩ :=
          later (Or.inr (isComplete_of_allowsSeparator allowed)) ordinary.1.notField ordinary.2
        exact ⟨Or.inr sameField, Or.inr (Or.inr sameOperator)⟩
    | logic isLogic complete =>
        have expected := expectsField (by simp [TokenKind.isBeforeField, isLogic])
        exact ⟨Or.inl expected, Or.inl expected⟩
    | openGroup opens expected =>
        have expected := expectsField (by simp [TokenKind.isBeforeField, opens])
        exact ⟨Or.inl expected, Or.inl expected⟩
    | closeGroup closes allowed =>
        rw [Context.allowsClose, Bool.and_eq_true] at allowed
        obtain ⟨sameField, sameOperator⟩ := later (Or.inr allowed.2)
          (by rw [closes]; exact TokenKind.noConfusion) (by rw [closes]; rfl)
        exact ⟨Or.inr sameField, Or.inr (Or.inr sameOperator)⟩
  refine ⟨?_, ?_, both.1, both.2, ?_⟩
  · rw [outerPrevious, innerPrevious]
    rfl
  · rw [last_push, last_push]
  · have opened := encloses.opened
    rw [opened_push, opened_push, closed_push, closed_push]
    omega

end Encloses

end Context

namespace Schema

variable {schema : Schema}

/-- A piece that is known stays the same when a closing parenthesis is put behind its text. -/
theorem piece_append_close (avoids : schema.NamesAvoidClose) {first : Char} {text : List Char}
    (rest : List Char) (known : (schema.piece first text).kind ≠ .invalid) :
    schema.piece first (text ++ ')' :: rest) = schema.piece first text ∧
      (schema.piece first text).width ≤ (first :: text).length := by
  unfold piece at known ⊢
  cases matched : schema.match? (first :: text) with
  | some found =>
      have within := width_le_of_match? matched
      have longer := schema.match?_append_close avoids rest matched
      rw [List.cons_append] at longer
      rw [longer]
      refine ⟨?_, within⟩
      simp only [Piece.whole, ← List.cons_append, List.take_append_of_le_length within]
  | none =>
      rw [matched] at known
      by_cases blank : Character.isBlank first = true
      · simp [match?_blank _ blank, blank, Piece.whole]
      · simp [blank, Piece.unknown] at known

/-- A text without invalid tokens has the same tokens in a group, where the closing parenthesis
comes behind them. -/
theorem scanFrom_enclosed (avoids : schema.NamesAvoidClose) (outer : Context) {inner : Context}
    {text : List Char} (rest : List Char) (encloses : outer.Encloses inner)
    (valid : firstInvalid? (schema.scanFrom inner text) = none) :
    schema.scanFrom outer (text ++ ')' :: rest) =
      schema.scanFrom inner text ++
        schema.scanFrom (outer.after schema (schema.scanFrom inner text)) (')' :: rest) := by
  revert outer
  fun_induction schema.scanFrom inner text with
  | case1 inner =>
      intro outer _
      rfl
  | case2 inner first text piece remainder token classified ih =>
      intro outer encloses
      rw [firstInvalid?, List.find?_cons] at valid
      have tokenValid : token.isInvalid = false := by
        cases isInvalid : token.isInvalid with
        | false => rfl
        | true => simp [isInvalid] at valid
      rw [tokenValid] at valid
      have known : piece.kind ≠ .invalid := by
        intro isInvalid
        rw [isInvalid] at classified
        cases classified
        contradiction
      have accepted : Accepts schema inner token := by
        rcases judged_of_classify classified with isInvalid | accepted
        · rw [tokenValid] at isInvalid
          contradiction
        · exact accepted
      obtain ⟨same, within⟩ := piece_append_close avoids rest known
      have behind := ih valid _ (encloses.push accepted)
      rw [List.cons_append, scanFrom]
      simp only [same]
      rw [encloses.classify classified tokenValid, ← List.cons_append,
        List.drop_append_of_le_length within]
      simp only [List.cons_append, Context.after_cons]
      rw [← behind]
  | case3 inner first text piece remainder passed ih =>
      intro outer encloses
      obtain ⟨isSpace, passedOuter⟩ := encloses.classify_none passed
      have known : piece.kind ≠ .invalid := by
        rw [isSpace]
        exact TokenKind.noConfusion
      obtain ⟨same, within⟩ := piece_append_close avoids rest known
      have behind := ih valid outer encloses
      rw [List.cons_append, scanFrom]
      simp only [same]
      rw [passedOuter, ← List.cons_append, List.drop_append_of_le_length within]
      exact behind

end Schema

end FilterQuery
