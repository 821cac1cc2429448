import FilterQuery.Proofs.Expression.Condition
import FilterQuery.Proofs.Lexicon.Fence

/-!
# Fields named in array queries

The text in the field position of an array query goes through the pattern table as a whole, so the
name of a field leads to the field exactly if the first match in the table covers all of it.  Where
the pattern of the name itself matches, only the patterns before it can take a shorter match: those
of keywords, of earlier fields and of the field's own label.
-/

namespace FilterQuery

/-- What a field may be called: its label, unless that is empty, and its name. -/
def Field.namings (field : Field) : List String :=
  (if field.label = "" then [] else [field.label]) ++ [field.name]

/-- No two fields are called the same, letter case aside. -/
def Schema.NamingsDistinct (schema : Schema) : Prop :=
  schema.fields.Pairwise fun field other => ∀ naming ∈ field.namings,
    ∀ otherNaming ∈ other.namings, sameCaseless naming otherNaming = false

instance (schema : Schema) : Decidable schema.NamingsDistinct :=
  inferInstanceAs (Decidable (schema.fields.Pairwise _))

namespace Field

theorem exists_naming_of_isNamed {field : Field} {text : String}
    (isNamed : field.isNamed text = true) :
    ∃ naming ∈ field.namings, sameCaseless naming text = true := by
  rw [Field.isNamed, Bool.or_eq_true, Bool.and_eq_true, bne_iff_ne] at isNamed
  rcases isNamed with byName | ⟨labelled, byLabel⟩
  · exact ⟨field.name, by simp [namings], byName⟩
  · exact ⟨field.label, by simp [namings, labelled], byLabel⟩

end Field

namespace Schema

/-- Where no two fields are called the same, a name leads to its own field. -/
theorem field?_name_of_namingsDistinct {schema : Schema} {field : Field} {front back : List Field}
    (fields_eq : schema.fields = front ++ field :: back) (distinct : schema.NamingsDistinct) :
    schema.field? field.name = some field := by
  have self : field.isNamed field.name = true := by simp [Field.isNamed, sameCaseless_self]
  refine List.find?_eq_some_iff_append.mpr ⟨self, front, back, fields_eq, ?_⟩
  intro other inFront
  rw [NamingsDistinct, fields_eq, List.pairwise_append] at distinct
  rw [Bool.not_eq_true', Bool.eq_false_iff]
  intro isNamed
  obtain ⟨naming, among, same⟩ := Field.exists_naming_of_isNamed isNamed
  have apart := distinct.2.2 other inFront field List.mem_cons_self naming among field.name
    (by simp [Field.namings])
  rw [apart] at same
  contradiction

end Schema

namespace Lexicon

open Character

/-- A name can be matched up to its end: its last character is a word character, or neither a
letter, a numeral nor an underscore. -/
def EndsPlainly (name : List Char) : Prop :=
  ∀ last ∈ name.getLast?, (isAlphanumeric last || last == '_') = true → isWord last = true

theorem width?_namePattern_self {name : String} (plainly : EndsPlainly name.toList) :
    (namePattern name).width? name.toList = some name.toList.length := by
  have dropped : dropLetters? name.toList name.toList = some [] := by
    simpa using dropLetters?_self name.toList []
  have ends : (!endsInWord name.toList || isBoundary name.toList name.toList.length) = true := by
    cases last : name.toList.getLast? with
    | none => simp [endsInWord, last]
    | some c =>
        rcases inWord : endsInWord name.toList with _ | _
        · rfl
        · have isWord_last := plainly c last (by simpa [endsInWord, last] using inWord)
          rw [isBoundary_length last isWord_last]
          rfl
  simp only [namePattern, nameWidth?, dropped, Option.map_some, widthBefore, List.length_nil,
    Nat.sub_zero, Option.filter_some, ends, if_true]

/-- A quoted text ends in its quote. -/
theorem isQuote_of_quotedWidth? {text : List Char} {last : Char}
    (matched : quotedWidth? text = some text.length) (ends : text.getLast? = some last) :
    isQuote last = true := by
  cases text with
  | nil => contradiction
  | cons quote rest =>
      rw [quotedWidth?, Option.ite_none_right_eq_some, Option.map_eq_some_iff] at matched
      obtain ⟨quoted, index, found, width_eq⟩ := matched
      obtain ⟨inside, same, _⟩ := List.findIdx?_eq_some_iff_getElem.mp found
      have index_eq : index = rest.length - 1 := by
        rw [List.length_cons] at width_eq
        omega
      have restEnds : rest.getLast? = some rest[index] := by
        rw [List.getLast?_eq_getElem?, ← index_eq, List.getElem?_eq_getElem inside]
      rw [List.getLast?_cons, restEnds, Option.getD_some, Option.some.injEq] at ends
      rwa [← ends, eq_of_beq same]

/-- A literal that is matched as a whole, free text apart, can be matched up to its end as a name as
well. -/
theorem endsPlainly_of_literal {pattern : Pattern} {text : List Char}
    (member : pattern ∈ literalPatterns) (typed : pattern.kind ≠ .literal)
    (matched : pattern.width? text = some text.length) : EndsPlainly text := by
  intro last ends alphanumeric
  have atBoundary {widths : List Nat} (found : firstBoundary? text widths = some text.length) :
      isWord last = true :=
    isWord_of_isBoundary_length ends (List.find?_some found)
  simp only [literalPatterns, List.mem_cons, List.not_mem_nil, or_false] at member
  rcases member with rfl | rfl | rfl | rfl | rfl | rfl | rfl | rfl
  · have quote := isQuote_of_quotedWidth? matched ends
    simp only [isQuote, Bool.or_eq_true, beq_iff_eq] at quote
    rcases quote with rfl | rfl
    · exact absurd alphanumeric (by decide)
    · exact absurd alphanumeric (by decide)
  · exact atBoundary matched
  · exact atBoundary matched
  · exact atBoundary matched
  · exact atBoundary matched
  · simp only [numberWidth?, Option.ite_none_left_eq_some] at matched
    exact atBoundary matched.2
  · exact atBoundary matched
  · contradiction

end Lexicon

open Lexicon

namespace Schema

variable {schema : Schema} {field : Field} {front back : List Field}

/-- The patterns that are tried before the name of a field: those of the keywords, of the fields in
front of it and of its own label. -/
def patternsBefore (front : List Field) (field : Field) : List Pattern :=
  keywordPatterns ++ front.flatMap fieldPatterns ++
    if field.label = "" then [] else [namePattern field.label]

/-- What stands before a pattern of the fields is tried first, and what stands behind it last. -/
theorem match?_eq_or_of_split {before behind : List Pattern} {pattern : Pattern}
    (split : schema.fields.flatMap fieldPatterns = before ++ pattern :: behind)
    (text : List Char) : schema.match? text =
      (firstMatch? (keywordPatterns ++ before) text).or
        (firstMatch? (pattern :: (behind ++ literalPatterns)) text) := by
  rw [match?, patterns, split]
  simp only [firstMatch?, ← List.findSome?_append]
  congr 1
  simp

theorem match?_eq_or_name (fields_eq : schema.fields = front ++ field :: back)
    (text : List Char) : schema.match? text =
      (firstMatch? (patternsBefore front field) text).or
        (firstMatch? (namePattern field.name :: (back.flatMap fieldPatterns ++ literalPatterns))
          text) := by
  have split : schema.fields.flatMap fieldPatterns =
      (front.flatMap fieldPatterns ++
        if field.label = "" then [] else [namePattern field.label]) ++
          namePattern field.name :: back.flatMap fieldPatterns := by
    rw [fields_eq, List.flatMap_append, List.flatMap_cons]
    simp [fieldPatterns]
  rw [match?_eq_or_of_split split, patternsBefore, List.append_assoc]

/-- The own pattern of a name matches it in front of what does not go on with a word, if the name can
be matched up to its end. -/
theorem admitted?_name_append {name : String} (nonempty : name ≠ "")
    (visible : name.toList.head?.any Character.isBlank = false)
    (plainly : EndsPlainly name.toList) {rest : List Char} (breaks : Character.BreaksWord rest) :
    (namePattern name).admitted? (name.toList ++ rest) = some name.toList.length := by
  have within : (namePattern name).Within name.toList rest :=
    fun width matched => Nat.le_of_eq (width_eq_of_namePattern matched)
  have own : (namePattern name).width? (name.toList ++ rest) = some name.toList.length := by
    rw [(cuts_namePattern name).width?_append breaks within, width?_namePattern_self plainly]
  cases shape : name.toList with
  | nil => exact absurd (by simpa using shape) nonempty
  | cons first text =>
      rw [shape] at own visible
      rw [Pattern.admitted?, own, Option.filter_some, if_pos]
      simpa using visible

theorem admitted?_name {name : String} (nonempty : name ≠ "")
    (visible : name.toList.head?.any Character.isBlank = false)
    (plainly : EndsPlainly name.toList) :
    (namePattern name).admitted? name.toList = some name.toList.length := by
  have admitted := admitted?_name_append nonempty visible plainly Character.breaksWord_nil
  rwa [List.append_nil] at admitted

/-- The name of a field is not found as a whole as anything but a field or free text. -/
theorem kind_of_findExact?_name {kind : TokenKind} (member : field ∈ schema.fields)
    (nonempty : field.name ≠ "")
    (visible : field.name.toList.head?.any Character.isBlank = false)
    (notKeyword : isKeyword field.name = false)
    (found : schema.findExact? field.name = some kind) : kind = .field ∨ kind = .literal := by
  rw [findExact?_eq_some_iff, match?_eq_or, Option.or_eq_some_iff, Option.or_eq_some_iff] at found
  rcases found with keyword | ⟨_, name | ⟨noName, literal⟩⟩
  · rw [isKeyword_iff.mpr ⟨_, keyword⟩] at notKeyword
    contradiction
  · obtain ⟨pattern, named, rfl, _⟩ := exists_pattern_of_firstMatch? name
    obtain ⟨naming, rfl⟩ := exists_naming named
    exact Or.inl rfl
  · obtain ⟨pattern, inTable, rfl, admitted⟩ := exists_pattern_of_firstMatch? literal
    apply Or.inr
    by_contra typed
    -- What such a literal matches as a whole is matched by the pattern of the name before it.
    have plainly := endsPlainly_of_literal inTable typed (Pattern.width?_of_admitted? admitted)
    have passed := List.findSome?_eq_none_iff.mp noName (namePattern field.name)
      (List.mem_flatMap.mpr ⟨field, member, by simp [fieldPatterns]⟩)
    rw [admitted?_name nonempty visible plainly] at passed
    contradiction

/-- The name of a field in the field position is the token of the field exactly if the first match
in the table covers all of it, and an invalid token otherwise.  If the name can be matched up to its
end, the first match covers all of it exactly if none of the patterns before that of the name takes
a shorter one. -/
theorem slotToken_name (fields_eq : schema.fields = front ++ field :: back)
    (distinct : schema.NamingsDistinct) (nonempty : field.name ≠ "")
    (visible : field.name.toList.head?.any Character.isBlank = false)
    (notKeyword : isKeyword field.name = false) :
    schema.slotToken Context.start field.name TokenKind.isField =
        (if (schema.findExact? field.name).isSome then Token.ofText .field field.name
          else Token.invalid field.name) ∧
      (EndsPlainly field.name.toList →
        ((schema.findExact? field.name).isSome = true ↔
          ∀ kind width, firstMatch? (patternsBefore front field) field.name.toList =
            some (kind, width) → width = field.name.toList.length)) := by
  have member : field ∈ schema.fields := by simp [fields_eq]
  constructor
  · cases found : schema.findExact? field.name with
    | none =>
        rw [slotToken, found]
        rfl
    | some kind =>
        apply slotToken_fieldName (field?_name_of_namingsDistinct fields_eq distinct) rfl
        rcases kind_of_findExact?_name member nonempty visible notKeyword found with rfl | rfl
        · exact Or.inl found
        · exact Or.inr found
  · intro plainly
    have own : schema.match? field.name.toList =
        (firstMatch? (patternsBefore front field) field.name.toList).or
          (some (.field, field.name.toList.length)) := by
      rw [match?_eq_or_name fields_eq,
        firstMatch?_cons_some (admitted?_name nonempty visible plainly)]
      rfl
    rw [Option.isSome_iff_exists]
    simp only [findExact?_eq_some_iff, own]
    cases before : firstMatch? (patternsBefore front field) field.name.toList with
    | none => simp
    | some first =>
        obtain ⟨kind, width⟩ := first
        simp

/-- A field whose name and label are the start of a longer name, but within a word. -/
def ordField : Field :=
  ⟨"ord", "ordered", .single .boolean, [.compare .equal], []⟩

/-- A field whose name consists of two words. -/
def orderDate : Field :=
  ⟨"order date", "placed", .single .date, [.compare .equal], []⟩

/-- A field whose name is the first of the two words. -/
def orderField : Field :=
  ⟨"order", "", .single .number, [.compare .equal], []⟩

theorem slotToken_name_orderDate :
    (EndsPlainly orderDate.name.toList ∧
        firstMatch? (patternsBefore [ordField] orderDate) orderDate.name.toList = none) ∧
      (⟨[ordField, orderDate, orderField]⟩ : Schema).slotToken Context.start "order date"
        TokenKind.isField = Token.ofText .field "order date" := by
  have plainly : EndsPlainly orderDate.name.toList := by
    rintro last ⟨⟩ _
    decide
  have untaken : firstMatch? (patternsBefore [ordField] orderDate) orderDate.name.toList = none := by
    decide
  obtain ⟨token_eq, found_iff⟩ := @slotToken_name ⟨[ordField, orderDate, orderField]⟩ orderDate
    [ordField] [orderField] rfl (by decide) (by decide) (by decide) (by decide)
  have found := (found_iff plainly).mpr fun kind width matched => by
    rw [untaken] at matched
    contradiction
  rw [if_pos found] at token_eq
  exact ⟨⟨plainly, untaken⟩, token_eq⟩

/-- Not every field can be named: the name of an earlier field may stand at the start of its name. -/
theorem not_forall_slotToken :
    ¬ ∀ (schema : Schema) (field : Field),
      ((schema.fields.flatMap fun field => [field.name, field.label]).Pairwise fun text other =>
        sameCaseless text other = false) →
      field ∈ schema.fields → field.name ≠ "" →
      field.name.toList.head?.any Character.isBlank = false → isKeyword field.name = false →
      schema.slotToken Context.start field.name TokenKind.isField =
        Token.ofText .field field.name := by
  intro claimed
  have token_eq := claimed
    ⟨[⟨"a", "First", .single .string, [.compare .equal], []⟩,
      ⟨"a b", "Second", .single .string, [.compare .equal], []⟩]⟩
    ⟨"a b", "Second", .single .string, [.compare .equal], []⟩
    (by decide) (by decide) (by decide) (by decide) (by decide)
  have kind_eq := congrArg Token.kind token_eq
  revert kind_eq
  decide

end Schema

end FilterQuery
