import FilterQuery.Proofs.Character.Caseless
import FilterQuery.Proofs.Lexicon.Fence

/-!
# Blanks behind a text

Several patterns allow blanks within a match, but none allows them at its end, names that end in a
blank apart.  So blanks at the end of a text do not change what is matched at its start.
-/

namespace FilterQuery

namespace Character

theorem breaksWord_of_blanks {blanks : List Char} (blank : ∀ c ∈ blanks, isBlank c = true) :
    BreaksWord blanks := by
  cases blanks with
  | nil => exact breaksWord_nil
  | cons c blanks => exact breaksWord_cons.mpr (isWord_of_isBlank (blank c List.mem_cons_self))

end Character

namespace Lexicon

open Character

/-- A pattern stops at blanks when a match of it ends behind a blank only in front of a word
character. -/
def Pattern.StopsAtBlanks (pattern : Pattern) : Prop :=
  ∀ ⦃text : List Char⦄ ⦃width : Nat⦄, pattern.width? text = some width → width ≠ 0 →
    text[width - 1]?.any isBlank = true → isWordAt text[width]? = true

/-- A pattern that stops at blanks does not reach over blanks at the end of a text. -/
theorem Pattern.StopsAtBlanks.within {pattern : Pattern} (stops : pattern.StopsAtBlanks)
    (cuts : pattern.Cuts) {text blanks : List Char} (blank : ∀ c ∈ blanks, isBlank c = true) :
    pattern.Within text blanks := by
  intro width matched
  have total := cuts.width_le matched
  rw [List.length_append] at total
  apply Nat.le_of_not_lt
  intro beyond
  have behindBlank : (text ++ blanks)[width - 1]?.any isBlank = true := by
    have inside : width - 1 - text.length < blanks.length := by omega
    rw [List.getElem?_append_right (by omega), List.getElem?_eq_getElem inside, Option.any_some]
    exact blank _ (List.getElem_mem inside)
  have inWord := stops matched (by omega) behindBlank
  rw [List.getElem?_append_right (by omega), isWordAt, Option.any_eq_true] at inWord
  obtain ⟨c, found, isWord_c⟩ := inWord
  rw [isWord_of_isBlank (blank c (List.mem_of_getElem? found))] at isWord_c
  contradiction

/-! ## Readers -/

/-- A reader ends visibly when what it takes off a text ends in something that is not blank. -/
def EndsVisibly (read : List Char → Option (List Char)) : Prop :=
  ∀ ⦃text left : List Char⦄, read text = some left →
    left = text ∨ ∃ front c, text = front ++ c :: left ∧ isBlank c = false

namespace EndsVisibly

variable {read next : List Char → Option (List Char)}

theorem bind (first : EndsVisibly read) (second : EndsVisibly next) :
    EndsVisibly fun text => (read text).bind next := by
  intro text left both
  rcases Option.bind_eq_some_iff.mp both with ⟨middle, readFirst, readSecond⟩
  rcases second readSecond with rfl | ⟨back, c, rfl, visible⟩
  · exact first readFirst
  · rcases first readFirst with rfl | ⟨front, d, rfl, _⟩
    · exact Or.inr ⟨back, c, rfl, visible⟩
    · exact Or.inr ⟨front ++ d :: back, c, by simp, visible⟩

/-- Blanks may be passed over before something that is not empty. -/
theorem afterBlanks (ends : EndsVisibly read)
    (consumes : ∀ {text left}, read text = some left → left.length < text.length) :
    EndsVisibly fun text => read (text.dropWhile isBlank) := by
  intro text left readRest
  rcases ends readRest with same | ⟨front, c, rest_eq, visible⟩
  · have shorter := consumes readRest
    rw [same] at shorter
    exact absurd shorter (Nat.lt_irrefl _)
  · refine Or.inr ⟨text.takeWhile isBlank ++ front, c, ?_, visible⟩
    rw [List.append_assoc, ← rest_eq, List.takeWhile_append_dropWhile]

theorem filter (ends : EndsVisibly read) (accepts : List Char → Bool) :
    EndsVisibly fun text => (read text).filter accepts :=
  fun _ _ filtered => ends (Option.filter_eq_some_iff.mp filtered).1

/-- A reader that ends visibly makes a pattern that stops at blanks. -/
theorem stopsAtBlanks (ends : EndsVisibly read) {pattern : Pattern}
    (reads : ∀ {text width}, pattern.width? text = some width →
      ∃ left, read text = some left ∧ width = widthBefore text left) : pattern.StopsAtBlanks := by
  intro text width matched positive behindBlank
  obtain ⟨left, readLeft, rfl⟩ := reads matched
  rcases ends readLeft with rfl | ⟨front, c, rfl, visible⟩
  · simp [widthBefore] at positive
  · have last : widthBefore (front ++ c :: left) left - 1 = front.length := by
      simp only [widthBefore, List.length_append, List.length_cons]
      omega
    rw [last, List.getElem?_append_right (Nat.le_refl _), Nat.sub_self, List.getElem?_cons_zero,
      Option.any_some, visible] at behindBlank
    contradiction

end EndsVisibly

theorem endsVisibly_dropLetters? {letters : List Char}
    (visible : letters.getLast?.any isBlank = false) : EndsVisibly (dropLetters? letters) := by
  intro text left dropped
  rcases exists_last_of_dropLetters? dropped with ⟨_, same⟩ | ⟨front, c, letter, text_eq, ends, same⟩
  · exact Or.inl same
  · refine Or.inr ⟨front, c, text_eq, ?_⟩
    rw [Bool.eq_false_iff]
    intro blank
    rw [ends, eq_of_sameLetter_of_isBlank blank same, Option.any_some, blank] at visible
    contradiction

theorem endsVisibly_dropS : EndsVisibly fun text => some (dropS text) := by
  intro text left dropped
  cases dropped
  cases text with
  | nil => exact Or.inl rfl
  | cons c text =>
      rw [dropS]
      split
      · next isS =>
          refine Or.inr ⟨[], c, rfl, ?_⟩
          have inWord := isWord_of_sameLetter_s isS
          rw [Bool.eq_false_iff]
          intro blank
          rw [isWord_of_isBlank blank] at inWord
          contradiction
      · exact Or.inl rfl

theorem Word.endsVisibly {word : Word} (visible : word.letters.getLast?.any isBlank = false) :
    EndsVisibly word.rest? := by
  have letters := endsVisibly_dropLetters? visible
  unfold Word.rest?
  cases word.mayEndInS with
  | true =>
      have both := letters.bind endsVisibly_dropS
      simpa only [if_true, Option.map_eq_bind, Function.comp_def] using both
  | false => simpa using letters

theorem endsVisibly_wordsRest? {words : List Word} (nonempty : ∀ word ∈ words, word.letters ≠ [])
    (visible : ∀ word ∈ words, word.letters.getLast?.any isBlank = false) :
    EndsVisibly (wordsRest? words) := by
  induction words with
  | nil =>
      intro text left read
      cases read
      exact Or.inl rfl
  | cons word words ih =>
      rcases List.forall_mem_cons.mp nonempty with ⟨wordNonempty, othersNonempty⟩
      rcases List.forall_mem_cons.mp visible with ⟨wordVisible, othersVisible⟩
      exact ((Word.endsVisibly wordVisible).afterBlanks (Word.length_rest?_lt wordNonempty)).bind
        (ih othersNonempty othersVisible)

theorem Keyword.endsVisibly {keyword : Keyword} (member : keyword ∈ keywords) :
    EndsVisibly keyword.rest? := by
  have visible : ∀ keyword ∈ keywords, keyword.symbol.toList.getLast?.any isBlank = false ∧
      ∀ word ∈ keyword.words, word.letters.getLast?.any isBlank = false := by decide
  obtain ⟨symbolVisible, wordsVisible⟩ := visible keyword member
  have nonempty := words_nonempty keyword member
  intro text left read
  rcases Option.or_eq_some_iff.mp read with symbol | ⟨_, words⟩
  · rw [Keyword.afterSymbol?] at symbol
    split at symbol
    · contradiction
    · rw [isPrefixOf?_eq_some_iff] at symbol
      rcases List.eq_nil_or_concat keyword.symbol.toList with empty | ⟨front, c, shape⟩
      · exact Or.inl (by rw [symbol, empty, List.nil_append])
      · refine Or.inr ⟨front, c, by rw [symbol, shape]; simp, ?_⟩
        simpa [shape] using symbolVisible
  · rw [Keyword.afterWords?] at words
    split at words
    · contradiction
    · next first others shape =>
        rw [shape] at nonempty wordsVisible
        rcases List.forall_mem_cons.mp nonempty with ⟨_, othersNonempty⟩
        rcases List.forall_mem_cons.mp wordsVisible with ⟨firstVisible, othersVisible⟩
        exact (((Word.endsVisibly firstVisible).bind
          (endsVisibly_wordsRest? othersNonempty othersVisible)).filter _) words

/-! ## Patterns -/

theorem stopsAtBlanks_of_mem_keywordPatterns {pattern : Pattern}
    (member : pattern ∈ keywordPatterns) : pattern.StopsAtBlanks := by
  obtain ⟨keyword, inTable, rfl⟩ := List.mem_map.mp member
  apply (Keyword.endsVisibly inTable).stopsAtBlanks
  intro text width matched
  obtain ⟨left, read, rfl⟩ := Option.map_eq_some_iff.mp matched
  exact ⟨left, read, rfl⟩

theorem stopsAtBlanks_namePattern {name : String}
    (visible : name.toList.getLast?.any isBlank = false) : (namePattern name).StopsAtBlanks := by
  apply (endsVisibly_dropLetters? visible).stopsAtBlanks
  intro text width matched
  obtain ⟨left, read, rfl⟩ := Option.map_eq_some_iff.mp (Option.filter_eq_some_iff.mp matched).1
  exact ⟨left, read, rfl⟩

/-- A shape that ends at a word boundary ends behind a blank only in front of a word. -/
theorem stopsAtBlanks_of_readings {kind : TokenKind} {width? : List Char → Option Nat}
    {readings : List Char → List Nat}
    (first : ∀ text, width? text = firstBoundary? text (readings text)) :
    Pattern.StopsAtBlanks ⟨kind, width?⟩ := by
  intro text width matched positive behindBlank
  simp only [first, firstBoundary?] at matched
  have boundary := List.find?_some matched
  obtain ⟨c, found, blank⟩ := (Option.any_eq_true _ _).mp behindBlank
  rw [isBoundary, if_neg positive, found, isWordAt, Option.any_some, isWord_of_isBlank blank]
    at boundary
  simpa using boundary

theorem stopsAtBlanks_quoted (kind : TokenKind) : Pattern.StopsAtBlanks ⟨kind, quotedWidth?⟩ := by
  intro text width matched _ behindBlank
  exfalso
  cases text with
  | nil => contradiction
  | cons quote text =>
      simp only [quotedWidth?, Option.ite_none_right_eq_some, Option.map_eq_some_iff] at matched
      obtain ⟨isQuote, index, found, rfl⟩ := matched
      obtain ⟨inside, same, _⟩ := List.findIdx?_eq_some_iff_getElem.mp found
      have quoteVisible : isBlank quote = false := by
        simp only [FilterQuery.isQuote, Bool.or_eq_true, beq_iff_eq] at isQuote
        rcases isQuote with rfl | rfl <;> decide
      rw [show index + 2 - 1 = index + 1 from rfl, List.getElem?_cons_succ,
        List.getElem?_eq_getElem inside, Option.any_some, eq_of_beq same, quoteVisible] at behindBlank
      contradiction

theorem stopsAtBlanks_free (kind : TokenKind) : Pattern.StopsAtBlanks ⟨kind, freeWidth?⟩ := by
  intro text width matched positive behindBlank
  exfalso
  simp only [freeWidth?] at matched
  split at matched
  · contradiction
  · cases matched
    obtain ⟨c, found, blank⟩ := (Option.any_eq_true _ _).mp behindBlank
    obtain ⟨rest, text_eq⟩ := List.takeWhile_prefix (l := text) isFree
    rw [← text_eq, List.getElem?_append_left (by rw [text_eq]; omega)] at found
    have free := List.all_eq_true.mp List.all_takeWhile c (List.mem_of_getElem? found)
    simp [isFree, blank] at free

theorem stopsAtBlanks_of_mem_literalPatterns {pattern : Pattern}
    (member : pattern ∈ literalPatterns) : pattern.StopsAtBlanks := by
  simp only [literalPatterns, List.mem_cons, List.not_mem_nil, or_false] at member
  rcases member with rfl | rfl | rfl | rfl | rfl | rfl | rfl | rfl
  · exact stopsAtBlanks_quoted _
  · exact @stopsAtBlanks_of_readings _ _ (layoutReadings "0000-00-00 00:00" ":00") fun _ => rfl
  · exact @stopsAtBlanks_of_readings _ _ (layoutReadings "0000-00-00" "") fun _ => rfl
  · exact @stopsAtBlanks_of_readings _ _ (layoutReadings "00:00" ":00") fun _ => rfl
  · exact @stopsAtBlanks_of_readings _ _ shorthandReadings fun _ => rfl
  · exact stopsAtBlanks_of_readings numberWidth?_eq
  · exact @stopsAtBlanks_of_readings _ _ booleanReadings fun _ => rfl
  · exact stopsAtBlanks_free _

end Lexicon

open Character Lexicon

namespace Schema

/-- No name and no label of a schema ends in a blank. -/
def NamesEndVisibly (schema : Schema) : Prop :=
  ∀ field ∈ schema.fields, field.name.toList.getLast?.any isBlank = false ∧
    field.label.toList.getLast?.any isBlank = false

variable {schema : Schema}

theorem stopsAtBlanks_of_mem_patterns (visible : schema.NamesEndVisibly) {pattern : Pattern}
    (member : pattern ∈ schema.patterns) : pattern.StopsAtBlanks := by
  simp only [patterns, List.mem_append] at member
  rcases member with (keyword | names) | literal
  · exact stopsAtBlanks_of_mem_keywordPatterns keyword
  · obtain ⟨name, rfl, endsVisibly⟩ :=
      exists_naming_of_all (·.toList.getLast?.any isBlank = false) visible names
    exact stopsAtBlanks_namePattern endsVisibly
  · exact stopsAtBlanks_of_mem_literalPatterns literal

/-- What a text is matched as does not change when blanks are put behind it. -/
theorem match?_append_blanks (visible : schema.NamesEndVisibly) (first : Char) (text : List Char)
    {blanks : List Char} (blank : ∀ c ∈ blanks, isBlank c = true) :
    schema.match? (first :: text ++ blanks) = schema.match? (first :: text) := by
  have cuts : ∀ pattern ∈ schema.patterns, pattern.Cuts := fun _ => cuts_of_mem_patterns
  apply firstMatch?_append cuts (breaksWord_of_blanks blank)
  intro pattern member
  exact (stopsAtBlanks_of_mem_patterns visible member).within (cuts pattern member) blank

end Schema

end FilterQuery
