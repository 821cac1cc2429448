import FilterQuery.Proofs.Lexicon.Priority

/-!
# Keywords spelled out

The keyword table is tried in order, so a keyword is found where it can be read and no keyword
before it in the table can.  Two keywords are apart when their words differ before either of them
ends; then no text begins with both.
-/

namespace FilterQuery

open Character

namespace Lexicon

/-- A keyword is found at the start of a text when the keywords before it in the table are not. -/
theorem firstMatch?_keywordPatterns_eq {before behind : List Keyword} {keyword : Keyword}
    {first : Char} (text : List Char) {rest : List Char} (table : keywords = before ++ keyword :: behind)
    (visible : isBlank first = false)
    (passed : ∀ other ∈ before, other.rest? (first :: text ++ rest) = none)
    (read : keyword.rest? (first :: text ++ rest) = some rest) :
    firstMatch? keywordPatterns (first :: text ++ rest) =
      some (keyword.kind, (first :: text).length) := by
  have found : keyword.pattern.admitted? (first :: text ++ rest) =
      some (first :: text).length := by
    have width_eq : widthBefore (first :: text ++ rest) rest = (first :: text).length := by
      rw [widthBefore, List.length_append, Nat.add_sub_cancel]
    change ((keyword.rest? (first :: text ++ rest)).map _).filter _ = _
    rw [read, Option.map_some, width_eq, Option.filter_some, if_pos]
    simp [visible]
  have missed : (before.map Keyword.pattern).findSome? (fun pattern =>
      (pattern.admitted? (first :: text ++ rest)).map fun width => (pattern.kind, width)) =
      none := by
    apply List.findSome?_eq_none_iff.mpr
    intro pattern member
    rcases List.mem_map.mp member with ⟨other, inBefore, rfl⟩
    change (((other.rest? (first :: text ++ rest)).map _).filter _).map _ = none
    rw [passed other inBefore]
    rfl
  rw [firstMatch?, keywordPatterns, table, List.map_append, List.findSome?_append, missed,
    Option.none_or, List.map_cons, List.findSome?_cons, found]
  rfl

/-! ## Words -/

deriving instance DecidableEq for Word

/-- Whether two texts differ in a letter before either of them ends. -/
def differ : List Char → List Char → Bool
  | letter :: letters, other :: others => !sameLetter letter other || differ letters others
  | _, _ => false

/-- A text does not begin with letters that differ from those it begins with. -/
theorem dropLetters?_of_differ {letters others text left : List Char}
    (different : differ letters others = true) (dropped : dropLetters? others text = some left) :
    dropLetters? letters text = none := by
  induction others generalizing letters text with
  | nil => cases letters <;> contradiction
  | cons other others ih =>
      cases letters with
      | nil => contradiction
      | cons letter letters =>
          cases text with
          | nil => contradiction
          | cons c text =>
              rw [dropLetters?, Option.ite_none_right_eq_some] at dropped
              obtain ⟨sameOther, dropped⟩ := dropped
              rw [dropLetters?]
              split
              · next same =>
                  have alike : sameLetter letter other = true := by
                    simp only [sameLetter, beq_iff_eq] at same sameOther ⊢
                    rw [← same, sameOther]
                  rw [differ, alike] at different
                  exact ih (by simpa using different) dropped
              · rfl

theorem wordsRest?_append (words more : List Word) (text : List Char) :
    wordsRest? (words ++ more) text = (wordsRest? words text).bind (wordsRest? more) := by
  induction words generalizing text with
  | nil => rfl
  | cons word words ih =>
      rw [List.cons_append, wordsRest?, wordsRest?, Option.bind_assoc]
      congr 1
      funext left
      exact ih left

/-- Whether some words differ from others before either of them end. -/
def apart : List Word → List Word → Bool
  | word :: words, other :: others =>
      if word = other then apart words others else differ word.letters other.letters
  | _, _ => false

/-- A text does not begin with words that differ from those it begins with. -/
theorem wordsRest?_of_apart {words others : List Word} {text left : List Char}
    (isApart : apart words others = true) (read : wordsRest? others text = some left) :
    wordsRest? words text = none := by
  induction others generalizing words text with
  | nil => cases words <;> contradiction
  | cons other others ih =>
      cases words with
      | nil => contradiction
      | cons word words =>
          rw [wordsRest?, Option.bind_eq_some_iff] at read
          obtain ⟨middle, readOther, readOthers⟩ := read
          rw [apart] at isApart
          rw [wordsRest?]
          split at isApart
          · next same =>
              rw [same, readOther]
              exact ih isApart readOthers
          · obtain ⟨_, dropped, _⟩ := Option.map_eq_some_iff.mp readOther
            rw [Word.rest?, dropLetters?_of_differ isApart dropped]
            rfl

/-! ## Keywords -/

namespace Keyword

variable {keyword other : Keyword} {first : Char} {text left : List Char}

/-- In front of something visible no blank is passed over. -/
theorem afterWords?_eq (text : List Char) (visible : isBlank first = false)
    (hasWords : keyword.words ≠ []) :
    keyword.afterWords? (first :: text) =
      (wordsRest? keyword.words (first :: text)).filter fun rest => !isWordAt rest.head? := by
  obtain ⟨word, words, shape⟩ := List.exists_cons_of_ne_nil hasWords
  rw [afterWords?, shape, wordsRest?, List.dropWhile_cons_of_neg (by simp [visible])]

theorem words_ne_nil_of_afterWords? (read : keyword.afterWords? text = some left) :
    keyword.words ≠ [] := by
  intro empty
  rw [afterWords?, empty] at read
  contradiction

/-- Whether the symbol of a keyword does not begin like the words of another. -/
def beginsApart (other keyword : Keyword) : Bool :=
  other.symbol.toList.head?.all fun mark => !keyword.wordsMayStart mark

/-- A keyword whose words are read is not taken for a symbol. -/
theorem afterSymbol?_of_beginsApart (nonempty : ∀ word ∈ keyword.words, word.letters ≠ [])
    (begins : other.beginsApart keyword = true) (read : keyword.afterWords? text = some left) :
    other.afterSymbol? text = none := by
  rw [afterSymbol?]
  split
  · rfl
  · next isSymbol =>
      rw [Option.eq_none_iff_forall_ne_some]
      intro behind symbolRead
      rw [isPrefixOf?_eq_some_iff] at symbolRead
      cases marks : other.symbol.toList with
      | nil => exact isSymbol (by simpa using marks)
      | cons mark more =>
          rw [marks, List.cons_append] at symbolRead
          simp only [beginsApart, marks, List.head?_cons, Option.all_some,
            Bool.not_eq_true'] at begins
          rw [symbolRead, afterWords?_eq_none _ nonempty begins] at read
          contradiction

/-- Whether the words of a keyword can never be taken for another keyword. -/
def isApartFrom (other keyword : Keyword) : Bool :=
  other.beginsApart keyword && (other.words.isEmpty || apart other.words keyword.words)

theorem rest?_of_isApartFrom (nonempty : ∀ word ∈ keyword.words, word.letters ≠ [])
    (visible : isBlank first = false) (isApart : other.isApartFrom keyword = true)
    (read : keyword.afterWords? (first :: text) = some left) :
    other.rest? (first :: text) = none := by
  rw [isApartFrom, Bool.and_eq_true, Bool.or_eq_true] at isApart
  obtain ⟨begins, otherWords⟩ := isApart
  rw [rest?, afterSymbol?_of_beginsApart nonempty begins read, Option.none_or]
  rcases otherWords with isEmpty | isApart
  · rw [afterWords?, List.isEmpty_iff.mp isEmpty]
  · rw [afterWords?_eq text visible (words_ne_nil_of_afterWords? read)] at read
    have unread := wordsRest?_of_apart isApart (Option.filter_eq_some_iff.mp read).1
    have hasWords : other.words ≠ [] := by
      intro empty
      rw [empty] at isApart
      contradiction
    rw [afterWords?_eq text visible hasWords, unread]
    rfl

/-- A keyword that goes on behind the words of another is not read where the rest of its words is
not. -/
theorem rest?_of_goesOn {more : List Word} (nonempty : ∀ word ∈ keyword.words, word.letters ≠ [])
    (visible : isBlank first = false) (begins : other.beginsApart keyword = true)
    (goesOn : other.words = keyword.words ++ more)
    (missing : ∀ behind, wordsRest? more left = some behind → isWordAt behind.head? = true)
    (read : keyword.afterWords? (first :: text) = some left) :
    other.rest? (first :: text) = none := by
  rw [rest?, afterSymbol?_of_beginsApart nonempty begins read, Option.none_or]
  have hasWords := words_ne_nil_of_afterWords? read
  rw [afterWords?_eq text visible hasWords] at read
  rw [afterWords?_eq text visible (by rw [goesOn]; simp [hasWords]), goesOn, wordsRest?_append,
    (Option.filter_eq_some_iff.mp read).1, Option.bind_some, Option.filter_eq_none_iff]
  intro behind found
  simp [missing behind found]

/-- A keyword whose words are all of a text is found in front of what does not go on with a word, if
the keywords before it in the table are apart from it or not found either. -/
theorem firstMatch?_words {before behind : List Keyword} {rest : List Char}
    (table : keywords = before ++ keyword :: behind) (visible : isBlank first = false)
    (begins : keyword.beginsApart keyword = true)
    (read : keyword.afterWords? (first :: text) = some []) (breaks : BreaksWord rest)
    (passed : ∀ other ∈ before, other.isApartFrom keyword = true ∨
      other.rest? (first :: text ++ rest) = none) :
    firstMatch? keywordPatterns (first :: text ++ rest) =
      some (keyword.kind, (first :: text).length) := by
  have nonempty := words_nonempty keyword (by rw [table]; simp)
  have longer := (readerCuts_afterWords? nonempty).append breaks read
  rw [List.nil_append] at longer
  apply firstMatch?_keywordPatterns_eq text table visible
  · intro other member
    rcases passed other member with isApart | missed
    · exact rest?_of_isApartFrom nonempty visible isApart longer
    · exact missed
  · rw [rest?, afterSymbol?_of_beginsApart nonempty begins longer, Option.none_or, longer]

/-- A text does not begin with a symbol that it would have to go on with. -/
theorem isPrefixOf?_append_eq_none {symbol other rest : List Char} (longer : ¬ other <+: symbol)
    (ends : ∀ mark more, other = symbol ++ mark :: more → rest.head? ≠ some mark) :
    other.isPrefixOf? (symbol ++ rest) = none := by
  rw [Option.eq_none_iff_forall_ne_some]
  intro left read
  rw [isPrefixOf?_eq_some_iff] at read
  rcases List.append_eq_append_iff.mp read with ⟨more, other_eq, rest_eq⟩ | ⟨more, symbol_eq, _⟩
  · cases more with
    | nil => exact longer (by simp [other_eq])
    | cons mark more => exact ends mark more other_eq (by simp [rest_eq])
  · exact longer ⟨more, symbol_eq.symm⟩

/-- Whether the symbol of a keyword can only be taken for another keyword if a mark follows. -/
def isApartFromSymbol (mark : Option Char) (other keyword : Keyword) : Bool :=
  !other.symbol.toList.isPrefixOf keyword.symbol.toList &&
    (!keyword.symbol.toList.isPrefixOf other.symbol.toList ||
      other.symbol.toList[keyword.symbol.toList.length]? == mark) &&
    !keyword.symbol.toList.head?.any other.wordsMayStart

theorem rest?_of_isApartFromSymbol {mark : Option Char} {rest : List Char}
    (nonempty : ∀ word ∈ other.words, word.letters ≠ [])
    (shape : keyword.symbol.toList = first :: text)
    (isApart : other.isApartFromSymbol mark keyword = true)
    (ends : ∀ c ∈ mark, rest.head? ≠ some c) : other.rest? (first :: text ++ rest) = none := by
  simp only [isApartFromSymbol, shape, Bool.and_eq_true, Bool.not_eq_true', Bool.or_eq_true,
    List.head?_cons, Option.any_some] at isApart
  obtain ⟨⟨notBefore, goesOn⟩, notStart⟩ := isApart
  have noSymbol : other.afterSymbol? (first :: text ++ rest) = none := by
    rw [afterSymbol?]
    split
    · rfl
    · apply isPrefixOf?_append_eq_none
      · intro isBefore
        rw [List.isPrefixOf_iff_prefix.mpr isBefore] at notBefore
        contradiction
      · intro c more other_eq
        rw [other_eq] at goesOn
        rcases goesOn with notPrefix | same
        · rw [List.isPrefixOf_iff_prefix.mpr (List.prefix_append _ _)] at notPrefix
          contradiction
        · rw [List.getElem?_append_right (Nat.le_refl _), Nat.sub_self, beq_iff_eq] at same
          exact ends c same.symm
  rw [rest?, noSymbol, Option.none_or, List.cons_append]
  exact afterWords?_eq_none _ nonempty notStart

/-- A symbol is found, if it is not taken for a keyword before it in the table. -/
theorem firstMatch?_symbol {before behind : List Keyword} {mark : Option Char} {rest : List Char}
    (table : keywords = before ++ keyword :: behind) (shape : keyword.symbol.toList = first :: text)
    (visible : isBlank first = false)
    (passed : ∀ other ∈ before, other.isApartFromSymbol mark keyword = true)
    (ends : ∀ c ∈ mark, rest.head? ≠ some c) :
    firstMatch? keywordPatterns (first :: text ++ rest) =
      some (keyword.kind, (first :: text).length) := by
  apply firstMatch?_keywordPatterns_eq text table visible
  · intro other member
    have nonempty := words_nonempty other (by rw [table]; exact List.mem_append_left _ member)
    exact rest?_of_isApartFromSymbol nonempty shape (passed other member) ends
  · have isSymbol : keyword.symbol ≠ "" := by
      intro empty
      rw [empty] at shape
      contradiction
    rw [rest?, afterSymbol?, if_neg isSymbol, shape, isPrefixOf?_eq_some_iff.mpr rfl, Option.some_or]

/-- A symbol that does not become another one is found wherever it stands. -/
theorem firstMatch?_mark {before behind : List Keyword}
    (table : keywords = before ++ keyword :: behind) (shape : keyword.symbol.toList = first :: text)
    (visible : isBlank first = false)
    (passed : ∀ other ∈ before, other.isApartFromSymbol none keyword = true) (rest : List Char) :
    firstMatch? keywordPatterns (first :: text ++ rest) =
      some (keyword.kind, (first :: text).length) := by
  have anywhere : ∀ c ∈ (none : Option Char), rest.head? ≠ some c := by simp
  exact firstMatch?_symbol table shape visible passed anywhere

end Keyword

end Lexicon

open Lexicon

namespace Schema

variable (schema : Schema)

theorem match?_of_keyword {text : List Char} {found : TokenKind × Nat}
    (matched : firstMatch? keywordPatterns text = some found) : schema.match? text = some found := by
  rw [match?_eq_or, matched, Option.some_or]

theorem match?_open (rest : List Char) : schema.match? ('(' :: rest) = some (.openGroup, 1) := by
  apply match?_of_keyword
  have table : keywords = [] ++ ⟨.openGroup, "(", []⟩ :: keywords.drop 1 := rfl
  exact Keyword.firstMatch?_mark table rfl (by decide) (by decide) rest

theorem match?_close (rest : List Char) : schema.match? (')' :: rest) = some (.closeGroup, 1) := by
  apply match?_of_keyword
  have table : keywords = keywords.take 1 ++ ⟨.closeGroup, ")", []⟩ :: keywords.drop 2 := rfl
  exact Keyword.firstMatch?_mark table rfl (by decide) (by decide) rest

theorem match?_comma (rest : List Char) : schema.match? (',' :: rest) = some (.comma, 1) := by
  apply match?_of_keyword
  have table : keywords = keywords.take 2 ++ ⟨.comma, ",", []⟩ :: keywords.drop 3 := rfl
  exact Keyword.firstMatch?_mark table rfl (by decide) (by decide) rest

theorem match?_and {rest : List Char} (breaks : BreaksWord rest) :
    schema.match? ("and".toList ++ rest) = some (.and, 3) := by
  apply match?_of_keyword
  have table : keywords = keywords.take 4 ++ ⟨.and, "&&", [word "and"]⟩ :: keywords.drop 5 := rfl
  have isApart : ∀ other ∈ keywords.take 4,
      other.isApartFrom ⟨.and, "&&", [word "and"]⟩ = true := by decide
  exact Keyword.firstMatch?_words table (by decide) (by decide) (by decide) breaks
    fun other member => Or.inl (isApart other member)

theorem match?_or {rest : List Char} (breaks : BreaksWord rest) :
    schema.match? ("or".toList ++ rest) = some (.or, 2) := by
  apply match?_of_keyword
  have table : keywords = keywords.take 5 ++ ⟨.or, "||", [word "or"]⟩ :: keywords.drop 6 := rfl
  have isApart : ∀ other ∈ keywords.take 5,
      other.isApartFrom ⟨.or, "||", [word "or"]⟩ = true := by decide
  exact Keyword.firstMatch?_words table (by decide) (by decide) (by decide) breaks
    fun other member => Or.inl (isApart other member)

end Schema

end FilterQuery
