import FilterQuery.Proofs.Character.Caseless
import FilterQuery.Proofs.Query.FieldSlot
import FilterQuery.Proofs.Token.Piece

/-!
# Fields named in text queries

In a text query a name or label stands in front of a space.  Where everything that the pattern table
tries before it is passed over, it is found as a field exactly if it can be matched up to its end.
A name that ends in a superscript, a fraction or another numeral without a word character is not
found, whatever else the schema holds.
-/

namespace FilterQuery

open Character Lexicon

/-- What the fields of a schema are called, in the order in which the table tries it. -/
def Schema.namings (schema : Schema) : List String :=
  schema.fields.flatMap Field.namings

namespace Lexicon

theorem fieldPatterns_eq_map (field : Field) :
    fieldPatterns field = field.namings.map namePattern := by
  unfold fieldPatterns Field.namings
  split <;> rfl

/-- A text that some name matches as a whole can be matched up to its end. -/
theorem endsPlainly_of_namePattern {name : String} {text : List Char}
    (matched : (namePattern name).width? text = some text.length) : EndsPlainly text := by
  intro last ends alphanumeric
  rw [Option.mem_def] at ends
  by_contra notWord
  rw [Bool.not_eq_true] at notWord
  have isAlphanumeric_last : isAlphanumeric last = true := by
    rcases Bool.or_eq_true _ _ |>.mp alphanumeric with letter | underscore
    · exact letter
    · rw [eq_of_beq underscore] at notWord
      exact absurd notWord (by decide)
  have length_eq := width_eq_of_namePattern matched
  rcases Option.filter_eq_some_iff.mp matched with ⟨covered, ending⟩
  rcases Option.map_eq_some_iff.mp covered with ⟨left, dropped, _⟩
  have total := length_dropLetters? dropped
  have left_eq : left = [] := List.eq_nil_of_length_eq_zero (by omega)
  -- The name ends in the very same character, so it asks for a boundary that the text has not.
  have nameEnds : name.toList.getLast? = some last := by
    rcases exists_last_of_dropLetters? dropped with ⟨_, rfl⟩ | ⟨front, c, letter, rfl, nameEnds, same⟩
    · rw [left_eq] at ends
      contradiction
    · rw [left_eq, List.getLast?_append_cons, List.getLast?_singleton, Option.some.injEq] at ends
      rw [ends] at same
      rw [nameEnds, eq_of_sameLetter_of_not_isWord isAlphanumeric_last notWord same]
  have inWord : endsInWord name.toList = true := by
    rw [endsInWord, nameEnds, Option.any_some, isAlphanumeric_last, Bool.true_or]
  rw [inWord, Bool.not_true, Bool.false_or] at ending
  rw [isWord_of_isBoundary_length ends ending] at notWord
  contradiction

end Lexicon

namespace Schema

variable {schema : Schema} {naming : String} {before behind : List String}

theorem match?_eq_or_naming (split : schema.namings = before ++ naming :: behind)
    (text : List Char) : schema.match? text =
      (firstMatch? (keywordPatterns ++ before.map namePattern) text).or
        (firstMatch? (namePattern naming :: (behind.map namePattern ++ literalPatterns)) text) := by
  have names_eq : schema.fields.flatMap fieldPatterns = schema.namings.map namePattern := by
    rw [namings, List.map_flatMap]
    congr 1
    funext field
    exact fieldPatterns_eq_map field
  apply match?_eq_or_of_split
  rw [names_eq, split, List.map_append, List.map_cons]

/-- What is found as a field in front of something that no word goes on with can be matched up to
its end. -/
theorem endsPlainly_of_match? {text rest : List Char} (breaks : BreaksWord rest)
    (matched : schema.match? (text ++ rest) = some (.field, text.length)) : EndsPlainly text := by
  obtain ⟨pattern, member, isField, admitted⟩ := exists_pattern_of_firstMatch? matched
  have whole := (cuts_of_mem_patterns member).cuts breaks (Nat.le_refl _)
    (Pattern.width?_of_admitted? admitted)
  rcases mem_patterns_cases member with keyword | ⟨other, rfl⟩ | literal
  · have notField : ∀ pattern ∈ keywordPatterns, pattern.kind ≠ .field := by decide
    exact absurd isField (notField pattern keyword)
  · exact endsPlainly_of_namePattern whole
  · have notField : ∀ pattern ∈ literalPatterns, pattern.kind ≠ .field := by decide
    exact absurd isField (notField pattern literal)

/-- A name or label in front of a space is found as a field exactly if it can be matched up to its
end, where everything that is tried before it is passed over. -/
theorem find?_naming (split : schema.namings = before ++ naming :: behind) (nonempty : naming ≠ "")
    (visible : naming.toList.head?.any Character.isBlank = false) (rest : String)
    (passed : ∀ pattern ∈ keywordPatterns ++ before.map namePattern,
      pattern.admitted? (naming ++ " " ++ rest).toList = none) :
    schema.find? (naming ++ " " ++ rest) = some (.field, naming) ↔ EndsPlainly naming.toList := by
  rw [String.append_assoc] at passed ⊢
  constructor
  · intro found
    exact endsPlainly_of_match? (breaksWord_blank rest) (match?_of_find? found)
  · intro plainly
    apply find?_of_match?
    have admitted := admitted?_name_append nonempty visible plainly (breaksWord_blank rest)
    have missed : firstMatch? (keywordPatterns ++ before.map namePattern)
        (naming.toList ++ (" " ++ rest).toList) = none := by
      apply List.findSome?_eq_none_iff.mpr
      intro pattern member
      rw [← String.toList_append, passed pattern member]
      rfl
    rw [match?_eq_or_naming split, missed, Option.none_or, firstMatch?_cons_some admitted]
    rfl

/-- A field whose label ends in a parenthesis. -/
def shareField : Field :=
  ⟨"share", "Share (%)", .single .number, [.compare .equal], []⟩

theorem find?_naming_share :
    (∀ pattern ∈ keywordPatterns ++ [].map namePattern,
        pattern.admitted? ("Share (%)" ++ " " ++ "= 5").toList = none) ∧
      (⟨[shareField]⟩ : Schema).find? ("Share (%)" ++ " " ++ "= 5") = some (.field, "Share (%)") := by
  have passed : ∀ pattern ∈ keywordPatterns ++ [].map namePattern,
      pattern.admitted? ("Share (%)" ++ " " ++ "= 5").toList = none := by decide
  have plainly : EndsPlainly "Share (%)".toList := by
    rintro last ⟨⟩ alphanumeric
    exact absurd alphanumeric (by decide)
  have found_iff := @find?_naming ⟨[shareField]⟩ "Share (%)" [] ["share"] rfl (by decide)
    (by decide) "= 5" passed
  exact ⟨passed, found_iff.mpr plainly⟩

/-- Not every label is found in front of a space: one that ends in a superscript is not, although
nothing is found before it. -/
theorem not_forall_find?_naming :
    ¬ ∀ (schema : Schema) (naming rest : String) (before behind : List String),
      schema.namings = before ++ naming :: behind → naming ≠ "" →
      naming.toList.head?.any Character.isBlank = false →
      (∀ pattern ∈ keywordPatterns ++ before.map namePattern,
        pattern.admitted? (naming ++ " " ++ rest).toList = none) →
      schema.find? (naming ++ " " ++ rest) = some (.field, naming) := by
  intro claimed
  have found := claimed ⟨[⟨"size", "Area m²", .single .number, [.compare .equal], []⟩]⟩ "Area m²"
    "= 5" [] ["size"] rfl (by decide) (by decide) (by decide)
  revert found
  decide +kernel

end Schema

end FilterQuery
