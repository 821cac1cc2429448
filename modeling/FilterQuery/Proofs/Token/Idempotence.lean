import FilterQuery.Proofs.Binary64.Text
import FilterQuery.Proofs.Token.Origin
import FilterQuery.Proofs.Value.ReadBack

/-!
# Classifying a token again

An accepted token that is classified again where it stands, by its own kind and its own text, is
accepted as the same token.  This needs that its text still means what it was read as: the name of
a field leads to that field, and an operand is named by no lookup, no infinite number, and no text
with a quote at an end.
-/

namespace FilterQuery

/-! ## Values -/

/-- The display text of an operand means the operand, unless it is an infinite number or a text with
a quote at an end. -/
theorem ValueType.cast?_display_of_plain {type : ValueType} {text : String} {value : Value}
    (read : type.cast? text = some value)
    (finite : ∀ amount, value = .number amount →
      ∃ negative magnitude, amount = .finite negative magnitude)
    (bare : ∀ content, value = .text content → hasOuterQuote content = false) :
    type.cast? value.display = some value := by
  by_cases isString : type = .string
  · subst isString
    cases read
    rw [cast?, Value.display, stripQuotes_of_bare (bare _ rfl)]
  · by_cases isNumber : type = .number
    · subst isNumber
      obtain ⟨amount, _, rfl⟩ := Option.map_eq_some_iff.mp read
      obtain ⟨negative, magnitude, rfl⟩ := finite amount rfl
      rw [cast?, Value.display, String.toList_ofList, Binary64.ofPlainChars?_toChars]
      rfl
    · exact cast?_display read isString isNumber

/-- A day is shown by the text that it is read from. -/
theorem ValueType.display_of_cast?_date {type : ValueType} {text : String} {day : Date}
    (read : type.cast? text = some (.date day)) : (Value.date day).display = text := by
  cases type with
  | date =>
      obtain ⟨_, readDay, same⟩ := Option.map_eq_some_iff.mp read
      cases same
      rw [Value.display, Date.toChars_of_ofChars? readDay, String.ofList_toList]
  | _ => simp [cast?, Option.bind_eq_some_iff] at read

/-- A moment is shown by the text that it is read from, if seconds are among it. -/
theorem ValueType.display_of_cast?_dateTime {type : ValueType} {text : String} {moment : DateTime}
    (read : type.cast? text = some (.dateTime moment)) (withSeconds : text.toList.count ':' = 2) :
    (Value.dateTime moment).display = text := by
  cases type with
  | dateTime =>
      obtain ⟨_, readMoment, same⟩ := Option.map_eq_some_iff.mp read
      cases same
      rw [Value.display, DateTime.toChars_of_ofChars? readMoment withSeconds, String.ofList_toList]
  | _ => simp [cast?, Option.bind_eq_some_iff] at read

/-! ## Tokens -/

/-- What an accepted token needs to be read again where it stands. -/
structure Token.IsStable (schema : Schema) (context : Context) (token : Token) : Prop where
  /-- The name of a field leads to a field of exactly that name. -/
  named : token.kind = .field →
    ∃ field, schema.field? token.raw = some field ∧ field.name = token.raw
  /-- No lookup of the latest field is named like an operand, with or without its quotes. -/
  unnamed : ∀ type field, token.kind = .value type → context.field = some field →
    field.lookup? token.raw = none ∧ field.lookup? (stripQuotes token.raw) = none
  finite : ∀ type amount, token.kind = .value type → token.value = .number amount →
    ∃ negative magnitude, amount = .finite negative magnitude
  bare : ∀ type content, token.kind = .value type → token.value = .text content →
    hasOuterQuote content = false

variable {schema : Schema} {context : Context} {token : Token}

theorem Schema.fieldToken_raw {text : String} (read : schema.fieldToken text = token)
    (accepted : token.isInvalid = false) (stable : token.IsStable schema context) :
    token.kind = .field ∧ schema.fieldToken token.raw = token := by
  unfold fieldToken at read
  split at read
  · next field _ =>
      subst read
      obtain ⟨same, named, name_eq⟩ := stable.named rfl
      refine ⟨rfl, ?_⟩
      rw [fieldToken, named]
      exact congrArg (Token.ofText .field) name_eq
  · subst read
    contradiction

theorem Context.valueToken_raw {text : String} (read : context.valueToken text = token)
    (accepted : token.isInvalid = false) (stable : token.IsStable schema context) :
    (∃ type, token.kind = .value type) ∧ context.valueToken token.raw = token := by
  rcases context.valueToken_cases text with refused | ⟨field, value, current, takes, means, shape⟩
  · rw [← read, refused] at accepted
    contradiction
  · rw [shape] at read
    subst read
    refine ⟨⟨field.type.element, rfl⟩, ?_⟩
    obtain ⟨noLookup, noStripped⟩ := stable.unnamed _ field rfl current
    have again : field.operand? value.display = some value := by
      rw [Field.operand?, Field.substitute]
      change field.lookup? value.display = none at noLookup
      change field.lookup? (stripQuotes value.display) = none at noStripped
      rw [noLookup, noStripped]
      exact ValueType.cast?_display_of_plain means (fun amount => stable.finite _ amount rfl)
        fun content => stable.bare _ content rfl
    rw [valueToken, current]
    simp only [Token.raw, again, takes, if_true]

theorem Token.eq_ofText_of_acceptedIf {acceptable : Bool} {kind : TokenKind} {text : String}
    (read : some (acceptedIf acceptable kind text) = some token)
    (accepted : token.isInvalid = false) : token = ofText kind text := by
  cases read
  cases acceptable with
  | true => rfl
  | false => contradiction

theorem Schema.classify_raw {kind : TokenKind} {text : String}
    (classified : schema.classify context kind text = some token)
    (accepted : token.isInvalid = false) (stable : token.IsStable schema context) :
    schema.classify context token.kind token.raw = some token := by
  have verbatim (same : token = Token.ofText kind text) :
      schema.classify context token.kind token.raw = some token := by
    rw [← classified, same]
    rfl
  have asValue (expected : context.expectsValue = true) (read : context.valueToken text = token) :
      schema.classify context token.kind token.raw = some token := by
    obtain ⟨⟨type, kind_eq⟩, again⟩ := Context.valueToken_raw read accepted stable
    simp only [kind_eq, classify, expected, if_true, again]
  cases kind with
  | space =>
      apply verbatim
      simp only [classify] at classified
      split at classified
      · contradiction
      · cases classified
        rfl
  | invalid =>
      cases classified
      contradiction
  | field | literal =>
      simp only [classify] at classified
      split at classified
      · next expected =>
          obtain ⟨kind_eq, again⟩ := fieldToken_raw (Option.some.inj classified) accepted stable
          simp only [kind_eq, classify, expected, if_true, again]
      · split at classified
        · next expected => exact asValue expected (Option.some.inj classified)
        · cases classified
          contradiction
  | noOperand | value _ =>
      simp only [classify] at classified
      split at classified
      · next expected => exact asValue expected (Option.some.inj classified)
      · cases classified
        contradiction
  | comparer _ | presence _ | and | or | openGroup | closeGroup | comma | slash =>
      exact verbatim (Token.eq_ofText_of_acceptedIf classified accepted)

/-- Classifying is idempotent: an accepted token is accepted as the same token when it is classified
again where it stands.  So the display text of an operand that is neither a text nor a number means
the operand, and the display text of a day, or of a moment written with seconds, is the text that
was read. -/
theorem Schema.classify_idempotent :
    (∀ (schema : Schema) (context : Context) (kind : TokenKind) (text : String) (token : Token),
      schema.classify context kind text = some token → token.isInvalid = false →
      token.IsStable schema context →
      schema.classify context token.kind token.raw = some token) ∧
    (∀ (type : FieldType) (text : String) (value : Value), type.cast? text = some value →
      (∀ content, value ≠ .text content) → (∀ amount, value ≠ .number amount) →
      type.cast? value.display = some value ∧
      (∀ day, value = .date day → value.display = text) ∧
      (∀ moment, value = .dateTime moment → text.toList.count ':' = 2 → value.display = text)) := by
  constructor
  · intro schema context kind text token classified accepted stable
    exact classify_raw classified accepted stable
  · intro type text value read notText notNumber
    refine ⟨?_, ?_, ?_⟩
    · exact ValueType.cast?_display_of_plain read (fun amount same => absurd same (notNumber amount))
        fun content same => absurd same (notText content)
    · rintro day rfl
      exact ValueType.display_of_cast?_date read
    · rintro moment rfl withSeconds
      exact ValueType.display_of_cast?_dateTime read withSeconds

/-- A field for moments, one of which has a name. -/
def dueField : Field :=
  ⟨"due", "", .single .dateTime, [.compare .equal], [⟨"launch", "2024-01-31 09:30"⟩]⟩

/-- The context behind the operator of a condition on the field. -/
def dueContext : Context :=
  ⟨some dueField, some (.compare .equal), some (.comparer .equal), some (.comparer .equal), 0, 0⟩

/-- A leap second at the end of a year. -/
def leapSecond : DateTime :=
  ⟨⟨2016, 12, 31, by decide, by decide, by decide⟩, 23, 59, 60, by decide, by decide, by decide⟩

theorem Schema.classify_idempotent_due :
    (⟨[dueField]⟩ : Schema).classify dueContext .literal "2016-12-31 23:59:60" =
        some ⟨.value .dateTime, .dateTime leapSecond⟩ ∧
      (⟨[dueField]⟩ : Schema).classify dueContext (.value .dateTime)
          (Value.dateTime leapSecond).display =
        some ⟨.value .dateTime, .dateTime leapSecond⟩ ∧
      dueField.type.cast? (Value.dateTime leapSecond).display = some (.dateTime leapSecond) ∧
      (Value.dateTime leapSecond).display = "2016-12-31 23:59:60" := by
  have classified : (⟨[dueField]⟩ : Schema).classify dueContext .literal "2016-12-31 23:59:60" =
      some ⟨.value .dateTime, .dateTime leapSecond⟩ := rfl
  have read : dueField.type.cast? "2016-12-31 23:59:60" = some (.dateTime leapSecond) := rfl
  have stable : (⟨.value .dateTime, .dateTime leapSecond⟩ : Token).IsStable ⟨[dueField]⟩
      dueContext := by
    constructor
    · rintro ⟨⟩
    · rintro _ field _ ⟨⟩
      exact ⟨by decide, by decide⟩
    · rintro _ _ _ ⟨⟩
    · rintro _ _ _ ⟨⟩
  obtain ⟨reclassified, again⟩ := classify_idempotent
  obtain ⟨meant, _, shown⟩ := again dueField.type _ _ read (by simp) (by simp)
  exact ⟨classified, reclassified _ _ _ _ _ classified rfl stable, meant,
    shown leapSecond rfl (by decide)⟩

end FilterQuery
