import FilterQuery.Proofs.Json.NumberText

/-!
# How deep a written value is read

A value of arrays, texts, truth values, floating point numbers and null is read from what is written
for it if and only if it does not nest deeper than the reader goes.  A deeper one is malformed.
-/

namespace FilterQuery.Json

mutual

/-- The nesting of arrays and objects in a value. -/
def nesting : Json → Nat
  | array items => nestingAmong items + 1
  | object members => nestingAmongMembers members + 1
  | _ => 0

/-- The deepest nesting among some values. -/
def nestingAmong : List Json → Nat
  | [] => 0
  | item :: rest => max item.nesting (nestingAmong rest)

/-- The deepest nesting among the values of some members. -/
def nestingAmongMembers : List (String × Json) → Nat
  | [] => 0
  | (_, value) :: rest => max value.nesting (nestingAmongMembers rest)

end

/-- A value without objects and without whole numbers. -/
inductive Plain : Json → Prop
  | null : Plain null
  | boolean (truth : Bool) : Plain (boolean truth)
  | float (negative : Bool) (magnitude : Magnitude) : Plain (number (.float negative magnitude))
  | string (content : String) : Plain (string content)
  | array {items : List Json} (each : ∀ item ∈ items, Plain item) : Plain (array items)

/-- What comes of a value that is read up to a bound: something, or that it is malformed. -/
inductive Settled {δ α : Type} (nesting bound : Nat) : Except (ReadError δ) α → Prop
  | read (within : nesting ≤ bound) (a : α) : Settled nesting bound (.ok a)
  | refused (beyond : bound < nesting) : Settled nesting bound (.error .malformed)

variable {δ α β : Type}

theorem Settled.map {nesting bound : Nat} {outcome : Except (ReadError δ) α}
    (settled : Settled nesting bound outcome) (change : α → β) :
    Settled nesting bound (outcome.map change) := by
  cases settled with
  | read within a => exact .read within _
  | refused beyond => exact .refused beyond

theorem Settled.succ {nesting bound : Nat} {outcome : Except (ReadError δ) α}
    (settled : Settled nesting bound outcome) : Settled (nesting + 1) (bound + 1) outcome := by
  cases settled with
  | read within a => exact .read (Nat.succ_le_succ within) a
  | refused beyond => exact .refused (Nat.succ_lt_succ beyond)

/-- The items of an array are read up to the first one that is nested too deep. -/
theorem settled_mapM {meaning : Json → Except (ReadError δ) α} {items : List Json} {bound : Nat}
    (each : ∀ item ∈ items, Settled item.nesting bound (meaning item)) :
    Settled (nestingAmong items) bound (items.mapM meaning) := by
  induction items with
  | nil => exact .read (Nat.zero_le _) []
  | cons item rest ih =>
      rcases List.forall_mem_cons.mp each with ⟨first, others⟩
      have behind := ih others
      rw [List.mapM_cons, nestingAmong]
      generalize meaning item = outcome at first ⊢
      generalize rest.mapM meaning = outcomes at behind ⊢
      cases first with
      | refused beyond => exact .refused (Nat.lt_of_lt_of_le beyond (Nat.le_max_left _ _))
      | read within a =>
          cases behind with
          | read withinRest as => exact .read (Nat.max_le.mpr ⟨within, withinRest⟩) (a :: as)
          | refused beyond => exact .refused (Nat.lt_of_lt_of_le beyond (Nat.le_max_right _ _))

/-! ## Scalars -/

theorem letters_append (word rest : List Char) :
    Reader.letters (δ := δ) word (word ++ rest) = .ok ((), rest) := by
  induction word with
  | nil => rfl
  | cons letter word ih => rw [List.cons_append, Reader.letters, if_pos rfl, ih]

theorem yields_word (first : Char) (others : List Char) :
    (Reader.word (δ := δ) first others).Yields (first :: others) (.ok ()) :=
  fun rest _ => letters_append (first :: others) rest

/-- A number text opens with a minus sign or a digit. -/
def OpensNumber (written : List Char) : Prop :=
  ∃ first others, written = first :: others ∧ (first = '-' ∨ first.isDigit = true)

theorem opensNumber_toChars {parts : NumberParts} (sound : parts.Sound) :
    OpensNumber parts.toChars := by
  obtain ⟨first, others, digits⟩ := List.exists_cons_of_ne_nil sound.whole.nonempty
  have isDigit := sound.whole.each first (by rw [digits]; exact List.mem_cons_self)
  rw [NumberParts.toChars, NumberParts.unsignedChars, digits]
  cases parts.negative with
  | true => exact ⟨'-', _, rfl, Or.inl rfl⟩
  | false => exact ⟨first, _, rfl, Or.inr isDigit⟩

/-- No other value opens like a number. -/
theorem ne_of_opensNumber {first c : Char} (opens : first = '-' ∨ first.isDigit = true)
    (other : c ≠ '-' ∧ c.isDigit = false) : first ≠ c := by
  rintro rfl
  rw [other.2] at opens
  exact other.1 (opens.resolve_right (by decide))

theorem noGap_of_opensNumber {first : Char} (opens : first = '-' ∨ first.isDigit = true) :
    isGap first = false := by
  have differs {c : Char} := @ne_of_opensNumber first c opens
  simp only [isGap, Bool.or_eq_false_iff, beq_eq_false_iff_ne]
  exact ⟨⟨⟨differs (by decide), differs (by decide)⟩, differs (by decide)⟩, differs (by decide)⟩

theorem opens_of_opensNumber {written : List Char} (number : OpensNumber written) :
    Opens written := by
  obtain ⟨first, others, rfl, opens⟩ := number
  exact ⟨first, others, rfl, noGap_of_opensNumber opens, ne_of_opensNumber opens (by decide),
    ne_of_opensNumber opens (by decide)⟩

/-- A value that opens like a number is read as a number. -/
theorem Reader.Yields.number {rules : Rules} {written : List Char} {amount : JsonNumber}
    (yields : (numberReader (δ := δ) rules).Yields written (.ok amount))
    (opensNumber : OpensNumber written) (bound : Nat) :
    (valueReader (δ := δ) rules bound).Yields written (.ok (number amount)) := by
  obtain ⟨first, others, rfl, opens⟩ := opensNumber
  have differs {c : Char} := @ne_of_opensNumber first c opens
  rw [valueReader]
  refine Reader.Yields.byFirst (noGap_of_opensNumber opens) ?_
  rw [if_neg (differs (by decide)), if_neg (differs (by decide)), if_neg (differs (by decide)),
    if_neg (differs (by decide)), if_pos opens]
  exact yields.map Json.number

/-- A floating point number is read from its text as a number, at any nesting. -/
theorem exists_yields_float (rules : Rules) (negative : Bool) (x : Magnitude) :
    OpensNumber (JsonNumber.float negative x).toChars ∧
      ∀ bound, ∃ amount, (valueReader (δ := δ) rules bound).Yields
        (JsonNumber.float negative x).toChars (.ok (number amount)) := by
  obtain ⟨parts, y, sound, written, means⟩ := JsonNumber.exists_parts negative x
  have opensNumber := opensNumber_toChars sound
  have yields := yields_numberReader (δ := δ) rules sound means
  rw [written] at opensNumber yields
  exact ⟨opensNumber, fun bound => ⟨_, yields.number opensNumber bound⟩⟩

/-! ## Values -/

namespace Plain

variable {value : Json}

theorem opens (plain : value.Plain) : Opens value.compactChars := by
  cases plain with
  | null => exact ⟨'n', _, rfl, rfl, by decide, by decide⟩
  | boolean truth => cases truth <;> exact ⟨_, _, rfl, rfl, by decide, by decide⟩
  | float negative magnitude =>
      exact opens_of_opensNumber (exists_yields_float (δ := Empty) .strict negative magnitude).1
  | string content => exact opens_quote content
  | array each => exact ⟨'[', _, rfl, rfl, by decide, by decide⟩

/-- A plain value is read from what is written for it as deep as the reader goes. -/
theorem settled (rules : Rules) (plain : value.Plain) (bound : Nat) :
    ∃ outcome, (valueReader (δ := δ) rules bound).Yields value.compactChars outcome ∧
      Settled value.nesting bound outcome := by
  induction plain generalizing bound with
  | null =>
      refine ⟨.ok .null, ?_, .read (Nat.zero_le _) _⟩
      rw [valueReader]
      exact Reader.Yields.byFirst rfl ((yields_word 'n' _).map fun _ => Json.null)
  | boolean truth =>
      refine ⟨.ok (.boolean truth), ?_, .read (Nat.zero_le _) _⟩
      rw [valueReader]
      cases truth with
      | true => exact Reader.Yields.byFirst rfl ((yields_word 't' _).map fun _ => Json.boolean true)
      | false =>
          exact Reader.Yields.byFirst rfl ((yields_word 'f' _).map fun _ => Json.boolean false)
  | float negative magnitude =>
      obtain ⟨amount, yields⟩ := (exists_yields_float rules negative magnitude).2 bound
      exact ⟨_, yields, .read (Nat.zero_le _) _⟩
  | string content =>
      refine ⟨.ok (.string content), ?_, .read (Nat.zero_le _) _⟩
      rw [valueReader]
      exact Reader.Yields.byFirst rfl ((yields_stringReader rules content).map Json.string)
  | @array items each ih =>
      cases bound with
      | zero =>
          refine ⟨.error .malformed, ?_, .refused (Nat.zero_lt_succ _)⟩
          rw [valueReader]
          exact Reader.Yields.byFirst rfl (Reader.yields_fail .malformed _)
      | succ inner =>
          choose! meaning yields settled using fun item member => ih item member inner
          have sequence := (Reader.yields_items (Or.inl rfl) yields fun item member =>
            (each item member).opens).map Json.array
          have deep : Settled (nestingAmong items + 1) (inner + 1)
              ((items.mapM meaning).map Json.array) :=
            ((settled_mapM settled).map Json.array).succ
          refine ⟨_, ?_, deep⟩
          rw [compactChars, compactItems_eq, valueReader]
          exact Reader.Yields.byFirst rfl (sequence.skip '[')

/-- The text of a plain value is a document unless the value is nested too deep. -/
theorem settled_parse (plain : value.Plain) :
    Settled value.nesting maxNesting (parse value.compact) := by
  obtain ⟨outcome, yields, settled⟩ := plain.settled .strict maxNesting
  rw [parse, compact, String.toList_ofList, readDocument_of_yields yields]
  exact settled

end Plain

end FilterQuery.Json
