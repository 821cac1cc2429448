import FilterQuery.Proofs.Character.Caseless
import FilterQuery.Proofs.Lexicon.LiteralCut
import FilterQuery.Proofs.Text.Digits

/-!
# Keywords and names before literals

Keywords and names are tried before literals, so a literal is only found where none of them is.  No
keyword begins with a quote or a digit, and what a keyword matches as a whole is a keyword.  A name
is not found where another letter stands than its first one, and in a run of letters no name is
found that ends before the run does.
-/

namespace FilterQuery

/-- Whether a text of a kind may stand for an operand. -/
def TokenKind.suggestsOperand : TokenKind → Bool
  | field | noOperand | value _ | literal => true
  | _ => false

namespace Character

/-- What holds of the ten ASCII digits holds of every ASCII digit. -/
theorem of_isDigit (property : Char → Prop)
    (each : ∀ code < 0x80, (Char.ofNat code).isDigit = true → property (Char.ofNat code))
    {c : Char} (digit : c.isDigit = true) : property c := by
  have ascii : c.toNat < 0x80 := Nat.lt_of_le_of_lt (toNat_le_of_isDigit digit) (by decide)
  exact of_ascii (fun c => c.isDigit = true → property c) ascii each digit

theorem isBlank_of_isDigit {c : Char} (digit : c.isDigit = true) : isBlank c = false :=
  of_isDigit (fun c => isBlank c = false) (by decide) digit

theorem isQuote_of_isDigit {c : Char} (digit : c.isDigit = true) : isQuote c = false :=
  of_isDigit (fun c => isQuote c = false) (by decide) digit

/-- An ASCII digit is no letter. -/
theorem ascii_of_isDigit {c : Char} (digit : c.isDigit = true) :
    c.toNat < 0x80 ∧ c.isAlpha = false :=
  of_isDigit (fun c => c.toNat < 0x80 ∧ c.isAlpha = false) (by decide) digit

/-- A text ends at a boundary when its last character is a word character. -/
theorem isBoundary_length {text : List Char} {last : Char} (ends : text.getLast? = some last)
    (word : isWord last = true) : isBoundary text text.length = true := by
  have nonempty : text.length ≠ 0 := by
    intro empty
    rw [List.length_eq_zero_iff] at empty
    rw [empty] at ends
    contradiction
  rw [isBoundary, if_neg nonempty, ← List.getLast?_eq_getElem?, ends,
    List.getElem?_eq_none (Nat.le_refl _)]
  simp [isWordAt, word]

/-- A text that ends at a boundary ends in a word character. -/
theorem isWord_of_isBoundary_length {text : List Char} {last : Char}
    (ends : text.getLast? = some last) (boundary : isBoundary text text.length = true) :
    isWord last = true := by
  have nonempty : text.length ≠ 0 := by
    intro empty
    rw [List.length_eq_zero_iff.mp empty] at ends
    contradiction
  rw [isBoundary, if_neg nonempty, ← List.getLast?_eq_getElem?, ends,
    List.getElem?_eq_none (Nat.le_refl _)] at boundary
  simpa [isWordAt] using boundary

end Character

namespace Lexicon

open Character

/-! ## Keywords -/

/-- Whether a keyword may begin with a character. -/
def Keyword.mayStart (keyword : Keyword) (c : Char) : Bool :=
  keyword.symbol.toList.head? == some c ||
    keyword.words.head?.any fun word => word.letters.head?.any (sameLetter c ·)

/-- A word is not found where another letter stands than its first one. -/
theorem Word.rest?_eq_none {word : Word} {text : List Char} (nonempty : word.letters ≠ [])
    (other : ∀ c ∈ text.head?, word.letters.head?.any (sameLetter c ·) = false) :
    word.rest? text = none := by
  rw [Word.rest?, Option.map_eq_none_iff]
  obtain ⟨letter, letters, shape⟩ := List.exists_cons_of_ne_nil nonempty
  cases text with
  | nil => rw [shape, dropLetters?]
  | cons c text =>
      have notSame : sameLetter c letter = false := by simpa [shape] using other c rfl
      rw [shape, dropLetters?, if_neg (by simp [notSame])]

/-- Whether the words of a keyword may begin with a character. -/
def Keyword.wordsMayStart (keyword : Keyword) (c : Char) : Bool :=
  keyword.words.head?.any fun word => word.letters.head?.any (sameLetter c ·)

theorem Keyword.afterWords?_eq_none {keyword : Keyword} {c : Char} (text : List Char)
    (nonempty : ∀ word ∈ keyword.words, word.letters ≠ [])
    (other : keyword.wordsMayStart c = false) : keyword.afterWords? (c :: text) = none := by
  rw [afterWords?]
  cases words : keyword.words with
  | nil => rfl
  | cons first others =>
      have notFirst : first.letters.head?.any (sameLetter c ·) = false := by
        simpa [wordsMayStart, words] using other
      have noWord : first.rest? (c :: text) = none := by
        apply Word.rest?_eq_none (nonempty first (by simp [words]))
        rintro _ ⟨⟩
        exact notFirst
      simp [noWord]

theorem Keyword.rest?_eq_none {keyword : Keyword} {c : Char} (text : List Char)
    (nonempty : ∀ word ∈ keyword.words, word.letters ≠ [])
    (other : keyword.mayStart c = false) : keyword.rest? (c :: text) = none := by
  simp only [mayStart, Bool.or_eq_false_iff, beq_eq_false_iff_ne, ne_eq] at other
  have noSymbol : keyword.afterSymbol? (c :: text) = none := by
    rw [afterSymbol?]
    split
    · rfl
    · next isSymbol =>
        rw [Option.eq_none_iff_forall_ne_some]
        intro left read
        rw [isPrefixOf?_eq_some_iff] at read
        cases shape : keyword.symbol.toList with
        | nil => exact isSymbol (by simpa using shape)
        | cons first more =>
            rw [shape] at read other
            cases read
            exact other.1 rfl
  rw [rest?, noSymbol, Option.none_or]
  exact afterWords?_eq_none text nonempty other.2

/-- No keyword is found where none may start. -/
theorem firstMatch?_keywordPatterns_eq_none {c : Char} (text : List Char)
    (other : ∀ keyword ∈ keywords, keyword.mayStart c = false) :
    firstMatch? keywordPatterns (c :: text) = none := by
  apply List.findSome?_eq_none_iff.mpr
  intro pattern member
  rcases List.mem_map.mp member with ⟨keyword, inTable, rfl⟩
  have missed := Keyword.rest?_eq_none text (words_nonempty keyword inTable)
    (other keyword inTable)
  simp [Pattern.admitted?, Keyword.pattern, missed]

theorem mayStart_of_isDigit {c : Char} (digit : c.isDigit = true) :
    ∀ keyword ∈ keywords, keyword.mayStart c = false :=
  of_isDigit (fun c => ∀ keyword ∈ keywords, keyword.mayStart c = false) (by decide) digit

theorem mayStart_of_isQuote {c : Char} (quote : isQuote c = true) :
    ∀ keyword ∈ keywords, keyword.mayStart c = false := by
  simp only [isQuote, Bool.or_eq_true, beq_iff_eq] at quote
  rcases quote with rfl | rfl <;> decide

/-- A keyword takes something off the text. -/
theorem Keyword.width?_ne_zero {keyword : Keyword} {text : List Char}
    (nonempty : ∀ word ∈ keyword.words, word.letters ≠ []) :
    keyword.pattern.width? text ≠ some 0 := by
  intro matched
  rcases Option.map_eq_some_iff.mp matched with ⟨left, read, none_covered⟩
  have shorter : left.length < text.length := by
    rcases Option.or_eq_some_iff.mp read with symbol | ⟨_, words⟩
    · rw [afterSymbol?] at symbol
      split at symbol
      · contradiction
      · next isSymbol =>
          rw [isPrefixOf?_eq_some_iff] at symbol
          have positive : keyword.symbol.toList ≠ [] := by simpa using isSymbol
          have length_pos := List.length_pos_iff.mpr positive
          rw [symbol, List.length_append]
          omega
    · rw [afterWords?] at words
      cases shape : keyword.words with
      | nil => simp [shape] at words
      | cons first others =>
          rw [shape] at words nonempty
          rcases List.forall_mem_cons.mp nonempty with ⟨firstNonempty, othersNonempty⟩
          rcases Option.filter_eq_some_iff.mp words with ⟨words, _⟩
          rcases Option.bind_eq_some_iff.mp words with ⟨middle, readFirst, readOthers⟩
          exact Nat.lt_of_le_of_lt ((readerCuts_wordsRest? othersNonempty).length_le readOthers)
            (Word.length_rest?_lt firstNonempty readFirst)
  rw [widthBefore] at none_covered
  omega

/-- No keyword begins with a blank. -/
theorem mayStart_of_isBlank {c : Char} (blank : isBlank c = true) :
    ∀ keyword ∈ keywords, keyword.mayStart c = false := by
  have visible : ∀ keyword ∈ keywords, keyword.symbol.toList.head?.any isBlank = false ∧
      (keyword.words.head?.any fun word => word.letters.head?.any isBlank) = false := by decide
  intro keyword member
  obtain ⟨noSymbol, noWord⟩ := visible keyword member
  rw [Bool.eq_false_iff]
  intro starts
  rw [Keyword.mayStart, Bool.or_eq_true, beq_iff_eq] at starts
  rcases starts with symbol | word
  · rw [symbol, Option.any_some, blank] at noSymbol
    contradiction
  · simp only [Option.any_eq_true] at word
    obtain ⟨word, isFirst, letter, begins, same⟩ := word
    rw [isFirst, Option.any_some, begins, Option.any_some,
      eq_of_sameLetter_of_isBlank blank same, blank] at noWord
    contradiction

/-- What a keyword matches is admissible: it is not empty and does not begin with a blank. -/
theorem admitted?_of_mem_keywordPatterns {pattern : Pattern} (member : pattern ∈ keywordPatterns)
    (text : List Char) : pattern.admitted? text = pattern.width? text := by
  obtain ⟨keyword, inTable, rfl⟩ := List.mem_map.mp member
  have nonempty := words_nonempty keyword inTable
  cases matched : keyword.pattern.width? text with
  | none => rw [Pattern.admitted?, matched, Option.filter_none]
  | some width =>
      have positive : width ≠ 0 := by
        rintro rfl
        exact Keyword.width?_ne_zero nonempty matched
      have visible : text.head?.any isBlank = false := by
        rw [Bool.eq_false_iff]
        intro begins
        obtain ⟨c, isFirst, blank⟩ := (Option.any_eq_true _ _).mp begins
        obtain ⟨rest, rfl⟩ := List.head?_eq_some_iff.mp isFirst
        have missed :=
          Keyword.rest?_eq_none rest nonempty (mayStart_of_isBlank blank keyword inTable)
        simp [Keyword.pattern, missed] at matched
      rw [Pattern.admitted?, matched, Option.filter_some, if_pos (by simp [positive, visible])]

/-- Where every match is admissible, the first admissible match is the first match of all. -/
theorem map_snd_firstMatch? {table : List Pattern} {text : List Char}
    (admitted : ∀ pattern ∈ table, pattern.admitted? text = pattern.width? text) :
    (firstMatch? table text).map (·.2) = table.findSome? (·.width? text) := by
  induction table with
  | nil => rfl
  | cons pattern table ih =>
      obtain ⟨first, others⟩ := List.forall_mem_cons.mp admitted
      rw [firstMatch?, List.findSome?_cons, List.findSome?_cons, first]
      cases pattern.width? text with
      | none => exact ih others
      | some width => rfl

/-- A text is a keyword exactly if a keyword is found that is all of it. -/
theorem isKeyword_iff {text : String} :
    isKeyword text = true ↔
      ∃ kind, firstMatch? keywordPatterns text.toList = some (kind, text.toList.length) := by
  rw [isKeyword, beq_iff_eq,
    ← map_snd_firstMatch? fun pattern member => admitted?_of_mem_keywordPatterns member _,
    Option.map_eq_some_iff]
  constructor
  · rintro ⟨⟨kind, _⟩, matched, rfl⟩
    exact ⟨kind, matched⟩
  · rintro ⟨kind, matched⟩
    exact ⟨_, matched, rfl⟩

/-- Keywords are tried before names, and names before literals. -/
theorem match?_eq_or (schema : Schema) (text : List Char) :
    schema.match? text = (firstMatch? keywordPatterns text).or
      ((firstMatch? (schema.fields.flatMap fieldPatterns) text).or
        (firstMatch? literalPatterns text)) := by
  simp only [Schema.match?, Schema.patterns, firstMatch?, List.append_assoc,
    List.findSome?_append]

/-- What is matched is matched by a keyword, or it may stand for an operand. -/
theorem match?_cases {schema : Schema} {text : List Char} {kind : TokenKind} {width : Nat}
    (matched : schema.match? text = some (kind, width)) :
    firstMatch? keywordPatterns text = some (kind, width) ∨ kind.suggestsOperand = true := by
  rw [match?_eq_or, Option.or_eq_some_iff] at matched
  rcases matched with keyword | ⟨_, other⟩
  · exact Or.inl keyword
  · apply Or.inr
    rcases Option.or_eq_some_iff.mp other with name | ⟨_, literal⟩
    · obtain ⟨pattern, member, rfl, _⟩ := exists_pattern_of_firstMatch? name
      obtain ⟨naming, rfl⟩ := exists_naming member
      rfl
    · obtain ⟨pattern, member, rfl, _⟩ := exists_pattern_of_firstMatch? literal
      have operands : ∀ pattern ∈ literalPatterns, pattern.kind.suggestsOperand = true := by decide
      exact operands pattern member

/-! ## Names -/

theorem sameLetter_of_dropLetters? {letters text left : List Char}
    (dropped : dropLetters? letters text = some left) :
    ∀ letter ∈ letters, ∃ c ∈ text, sameLetter c letter = true := by
  induction letters generalizing text with
  | nil => simp
  | cons first letters ih =>
      cases text with
      | nil => contradiction
      | cons c text =>
          rw [dropLetters?] at dropped
          split at dropped
          · next same =>
              intro letter member
              rcases List.mem_cons.mp member with rfl | member
              · exact ⟨c, List.mem_cons_self, same⟩
              · obtain ⟨other, inText, sameOther⟩ := ih dropped letter member
                exact ⟨other, List.mem_cons_of_mem c inText, sameOther⟩
          · contradiction

/-- A name is matched in its own length. -/
theorem width_eq_of_namePattern {name : String} {text : List Char} {width : Nat}
    (matched : (namePattern name).width? text = some width) : width = name.toList.length := by
  rcases Option.map_eq_some_iff.mp (Option.filter_eq_some_iff.mp matched).1 with ⟨left, dropped, rfl⟩
  rw [widthBefore, length_dropLetters? dropped, Nat.add_sub_cancel]

/-- A name is not found where another letter stands than its first one. -/
theorem admitted?_namePattern_eq_none {name : String} {c : Char} (text : List Char)
    (other : ∀ letter ∈ name.toList.head?, sameLetter c letter = false) :
    (namePattern name).admitted? (c :: text) = none := by
  rw [Pattern.admitted?, Option.filter_eq_none_iff]
  intro width matched
  rcases Option.filter_eq_some_iff.mp matched with ⟨matched, _⟩
  rcases Option.map_eq_some_iff.mp matched with ⟨left, dropped, rfl⟩
  cases shape : name.toList with
  | nil =>
      rw [shape] at dropped
      cases dropped
      simp [widthBefore]
  | cons letter letters =>
      rw [shape] at dropped
      rw [dropLetters?, other letter (by rw [shape]; rfl)] at dropped
      contradiction

/-- No name is found at an ASCII mark, if none begins with a mark of its kind. -/
theorem firstMatch?_names_mark {schema : Schema} {isMark : Char → Bool}
    (avoids : ∀ field ∈ schema.fields, field.name.toList.head?.any isMark = false ∧
      field.label.toList.head?.any isMark = false)
    {c : Char} (text : List Char) (mark : isMark c = true) (ascii : c.toNat < 0x80)
    (notAlpha : c.isAlpha = false) :
    firstMatch? (schema.fields.flatMap fieldPatterns) (c :: text) = none := by
  apply firstMatch?_names_eq_none (·.toList.head?.any isMark = false) avoids
  intro name avoided
  apply admitted?_namePattern_eq_none
  intro letter first
  rw [Bool.eq_false_iff]
  intro same
  rw [Option.mem_def.mp first, Option.any_some, eq_of_sameLetter ascii notAlpha same,
    mark] at avoided
  contradiction

/-- In a text of letters no name is found that ends before the text does. -/
theorem admitted?_namePattern_word {name : String} {text : List Char} {width : Nat}
    (letters : ∀ c ∈ text, (fold c).isLower = true)
    (admitted : (namePattern name).admitted? text = some width) : width = text.length := by
  rcases Option.filter_eq_some_iff.mp admitted with ⟨matched, admissible⟩
  obtain rfl := width_eq_of_namePattern matched
  rcases Option.filter_eq_some_iff.mp matched with ⟨matched, ends⟩
  rcases Option.map_eq_some_iff.mp matched with ⟨left, dropped, _⟩
  have length_eq := length_dropLetters? dropped
  have word (index : Nat) (inside : index < text.length) : isWordAt text[index]? = true := by
    rw [List.getElem?_eq_getElem inside]
    exact (letter_of_fold_isLower (letters _ (List.getElem_mem inside))).1
  have inWord : endsInWord name.toList = true := by
    rw [endsInWord]
    cases last : name.toList.getLast? with
    | none => simp_all
    | some letter =>
        rcases sameLetter_of_dropLetters? dropped letter (List.mem_of_getLast? last) with
          ⟨c, inText, same⟩
        have fold_eq : fold c = fold letter := by simpa [sameLetter] using same
        have lower : (fold letter).isLower = true := by
          rw [← fold_eq]
          exact letters c inText
        simp [(letter_of_fold_isLower lower).2]
  have positive : name.toList.length ≠ 0 := by simp_all
  apply Nat.le_antisymm
  · omega
  · apply Nat.le_of_not_lt
    intro inside
    rw [inWord, Bool.not_true, Bool.false_or, isBoundary, if_neg positive, word _ inside,
      word _ (by omega)] at ends
    contradiction

end Lexicon

end FilterQuery
