import FilterQuery.Lexicon.Keyword
import FilterQuery.Proofs.Character.Folding

/-!
# Reading off the start of a text

The patterns of keywords and names read characters off the start of a text and give back what is
left.  Such a reader looks at no more than the next character behind what it has read, and only to
see whether a word goes on.  So a text that does not go on with a word character can be appended
to what it reads, and cut off again.
-/

namespace FilterQuery

namespace Character

/-- Whether a text does not continue a word that stands before it. -/
def BreaksWord (text : List Char) : Prop :=
  isWordAt text.head? = false

theorem breaksWord_nil : BreaksWord [] :=
  rfl

theorem breaksWord_cons {c : Char} {rest : List Char} :
    BreaksWord (c :: rest) ↔ isWord c = false :=
  Iff.rfl

theorem isWord_of_isDigit {c : Char} (digit : isDigit c = true) : isWord c = true := by
  simp only [isDigit, Bool.and_eq_true] at digit
  simp [isWord, digit.1, digit.2]

/-- The small `s` is only compared with word characters. -/
theorem isWord_of_sameLetter_s {c : Char} (same : sameLetter c 's' = true) : isWord c = true := by
  have fold_eq : fold c = fold 's' := by simpa [sameLetter] using same
  exact (letter_of_fold_isLower (by rw [fold_eq]; decide)).1

/-- A text that breaks a word is no part of one, so a boundary before it stays where it is. -/
theorem isBoundary_append {text rest : List Char} {position : Nat} (breaks : BreaksWord rest)
    (within : position ≤ text.length) :
    isBoundary (text ++ rest) position = isBoundary text position := by
  have before (index : Nat) (inside : index < text.length) :
      (text ++ rest)[index]? = text[index]? :=
    List.getElem?_append_left inside
  have behind : isWordAt (text ++ rest)[position]? = isWordAt text[position]? := by
    rcases Nat.lt_or_eq_of_le within with inside | atEnd
    · rw [before position inside]
    · rw [atEnd, List.getElem?_append_right (Nat.le_refl _), Nat.sub_self, ← List.head?_eq_getElem?,
        breaks]
      simp [isWordAt]
  unfold isBoundary
  rw [behind]
  split
  · rfl
  · next positive => rw [before (position - 1) (by omega)]

end Character

namespace Lexicon

open Character

/-- A reader cuts when it reads the same off a text whatever follows, as long as that does not
continue a word. -/
structure ReaderCuts (read : List Char → Option (List Char)) : Prop where
  length_le {text left : List Char} : read text = some left → left.length ≤ text.length
  append {text left rest : List Char} : BreaksWord rest → read text = some left →
    read (text ++ rest) = some (left ++ rest)
  cut {text left rest : List Char} : BreaksWord rest → rest.length ≤ left.length →
    read (text ++ rest) = some left → ∃ kept, read text = some kept ∧ left = kept ++ rest

theorem length_dropLetters? {letters text left : List Char}
    (dropped : dropLetters? letters text = some left) :
    text.length = letters.length + left.length := by
  induction letters generalizing text with
  | nil =>
      cases dropped
      simp
  | cons letter letters ih =>
      cases text with
      | nil => contradiction
      | cons c text =>
          rw [dropLetters?] at dropped
          split at dropped
          · have shorter := ih dropped
            simp only [List.length_cons]
            omega
          · contradiction

theorem dropLetters?_self (letters rest : List Char) :
    dropLetters? letters (letters ++ rest) = some rest := by
  induction letters with
  | nil => rfl
  | cons letter letters ih =>
      rw [List.cons_append, dropLetters?, if_pos (by simp [sameLetter])]
      exact ih

theorem dropLetters?_bind (letters more text : List Char) :
    dropLetters? (letters ++ more) text = (dropLetters? letters text).bind (dropLetters? more) := by
  induction letters generalizing text with
  | nil => rfl
  | cons letter letters ih =>
      cases text with
      | nil => rfl
      | cons c text =>
          rw [List.cons_append, dropLetters?, dropLetters?]
          split
          · exact ih text
          · rfl

theorem dropLetters?_append {letters text left : List Char} (rest : List Char)
    (dropped : dropLetters? letters text = some left) :
    dropLetters? letters (text ++ rest) = some (left ++ rest) := by
  induction letters generalizing text with
  | nil =>
      cases dropped
      rfl
  | cons letter letters ih =>
      cases text with
      | nil => contradiction
      | cons c text =>
          rw [dropLetters?] at dropped
          split at dropped
          · next same =>
              rw [List.cons_append, dropLetters?, if_pos same]
              exact ih dropped
          · contradiction

theorem dropLetters?_cut {letters text left rest : List Char}
    (within : rest.length ≤ left.length)
    (dropped : dropLetters? letters (text ++ rest) = some left) :
    ∃ kept, dropLetters? letters text = some kept ∧ left = kept ++ rest := by
  induction letters generalizing text with
  | nil =>
      cases dropped
      exact ⟨text, rfl, rfl⟩
  | cons letter letters ih =>
      cases text with
      | nil =>
          have longer := length_dropLetters? dropped
          simp only [List.nil_append, List.length_cons] at longer
          omega
      | cons c text =>
          rw [List.cons_append, dropLetters?] at dropped
          rw [dropLetters?]
          split at dropped
          · next same =>
              rw [if_pos same]
              exact ih dropped
          · contradiction

/-- Letters that are read off a text end in the same letter as what is read. -/
theorem exists_last_of_dropLetters? {letters text left : List Char}
    (dropped : dropLetters? letters text = some left) :
    letters = [] ∧ left = text ∨ ∃ front c letter, text = front ++ c :: left ∧
      letters.getLast? = some letter ∧ sameLetter c letter = true := by
  induction letters generalizing text with
  | nil =>
      cases dropped
      exact Or.inl ⟨rfl, rfl⟩
  | cons letter letters ih =>
      cases text with
      | nil => contradiction
      | cons c text =>
          rw [dropLetters?, Option.ite_none_right_eq_some] at dropped
          rcases ih dropped.2 with ⟨rfl, rfl⟩ | ⟨front, d, last, rfl, ends, same⟩
          · exact Or.inr ⟨[], c, letter, rfl, rfl, dropped.1⟩
          · refine Or.inr ⟨c :: front, d, last, rfl, ?_, same⟩
            rw [List.getLast?_cons, ends, Option.getD_some]

theorem readerCuts_dropLetters? (letters : List Char) : ReaderCuts (dropLetters? letters) where
  length_le dropped := by
    have exact_length := length_dropLetters? dropped
    omega
  append _ dropped := dropLetters?_append _ dropped
  cut _ within dropped := dropLetters?_cut within dropped

theorem dropS_of_breaksWord {rest : List Char} (breaks : BreaksWord rest) : dropS rest = rest := by
  cases rest with
  | nil => rfl
  | cons c rest =>
      rw [dropS, if_neg]
      intro same
      rw [breaksWord_cons, isWord_of_sameLetter_s same] at breaks
      contradiction

theorem readerCuts_dropS : ReaderCuts fun text => some (dropS text) where
  length_le {text left} dropped := by
    cases dropped
    cases text with
    | nil => exact Nat.le_refl _
    | cons c text =>
        rw [dropS]
        split <;> simp
  append {text left rest} breaks dropped := by
    cases dropped
    cases text with
    | nil => rw [List.nil_append, dropS_of_breaksWord breaks, dropS, List.nil_append]
    | cons c text =>
        simp only [List.cons_append, dropS]
        split <;> rfl
  cut {text left rest} breaks within dropped := by
    cases dropped
    cases text with
    | nil => exact ⟨[], rfl, dropS_of_breaksWord breaks⟩
    | cons c text =>
        refine ⟨_, rfl, ?_⟩
        simp only [List.cons_append, dropS]
        split <;> rfl

namespace ReaderCuts

variable {read next : List Char → Option (List Char)}

theorem pure : ReaderCuts some where
  length_le read := by
    cases read
    exact Nat.le_refl _
  append _ read := by
    cases read
    rfl
  cut _ _ read := by
    cases read
    exact ⟨_, rfl, rfl⟩

theorem bind (first : ReaderCuts read) (second : ReaderCuts next) :
    ReaderCuts fun text => (read text).bind next where
  length_le both := by
    rcases Option.bind_eq_some_iff.mp both with ⟨middle, readFirst, readSecond⟩
    exact Nat.le_trans (second.length_le readSecond) (first.length_le readFirst)
  append breaks both := by
    rcases Option.bind_eq_some_iff.mp both with ⟨middle, readFirst, readSecond⟩
    rw [first.append breaks readFirst]
    exact second.append breaks readSecond
  cut breaks within both := by
    rcases Option.bind_eq_some_iff.mp both with ⟨middle, readFirst, readSecond⟩
    have middleWithin := Nat.le_trans within (second.length_le readSecond)
    obtain ⟨keptFirst, cutFirst, rfl⟩ := first.cut breaks middleWithin readFirst
    obtain ⟨kept, cutSecond, rfl⟩ := second.cut breaks within readSecond
    exact ⟨kept, by rw [cutFirst]; exact cutSecond, rfl⟩

/-- Blanks may be passed over before something that is not empty. -/
theorem afterBlanks (cuts : ReaderCuts read)
    (consumes : ∀ {text left}, read text = some left → left.length < text.length) :
    ReaderCuts fun text => read (text.dropWhile isBlank) where
  length_le readRest :=
    Nat.le_trans (cuts.length_le readRest) (List.dropWhile_sublist _).length_le
  append {text left rest} breaks readRest := by
    rw [List.dropWhile_append]
    split
    · next allBlank =>
        rw [List.isEmpty_iff.mp allBlank] at readRest
        exact absurd (consumes readRest) (Nat.not_lt_zero _)
    · exact cuts.append breaks readRest
  cut {text left rest} breaks within readRest := by
    rw [List.dropWhile_append] at readRest
    split at readRest
    · have shorter := consumes readRest
      have dropped := (List.dropWhile_sublist (l := rest) isBlank).length_le
      omega
    · exact cuts.cut breaks within readRest

/-- A reader may insist that no word goes on behind what it has read. -/
theorem filterWordEnd (cuts : ReaderCuts read) :
    ReaderCuts fun text => (read text).filter fun left => !isWordAt left.head? where
  length_le filtered := cuts.length_le (Option.filter_eq_some_iff.mp filtered).1
  append {text left rest} breaks filtered := by
    rcases Option.filter_eq_some_iff.mp filtered with ⟨readLeft, ends⟩
    rw [cuts.append breaks readLeft, Option.filter_some, if_pos]
    cases left with
    | nil => rw [List.nil_append, breaks]; rfl
    | cons c left => exact ends
  cut {text left rest} breaks within filtered := by
    rcases Option.filter_eq_some_iff.mp filtered with ⟨readLeft, ends⟩
    obtain ⟨kept, cutLeft, rfl⟩ := cuts.cut breaks within readLeft
    refine ⟨kept, ?_, rfl⟩
    rw [cutLeft, Option.filter_some, if_pos]
    cases kept with
    | nil => rfl
    | cons c kept => exact ends

end ReaderCuts

theorem Word.readerCuts (word : Word) : ReaderCuts word.rest? := by
  have letters := readerCuts_dropLetters? word.letters
  unfold Word.rest?
  cases word.mayEndInS with
  | true =>
      have both := letters.bind readerCuts_dropS
      simpa only [if_true, Option.map_eq_bind, Function.comp_def] using both
  | false => simpa using letters

/-- A word that is not empty takes something off the text. -/
theorem Word.length_rest?_lt {word : Word} (nonempty : word.letters ≠ []) {text left : List Char}
    (read : word.rest? text = some left) : left.length < text.length := by
  unfold Word.rest? at read
  rcases Option.map_eq_some_iff.mp read with ⟨middle, dropped, rfl⟩
  have longer := length_dropLetters? dropped
  have positive := List.length_pos_iff.mpr nonempty
  split
  · have shorter : (dropS middle).length ≤ middle.length := readerCuts_dropS.length_le rfl
    omega
  · omega

theorem readerCuts_wordsRest? {words : List Word} (nonempty : ∀ word ∈ words, word.letters ≠ []) :
    ReaderCuts (wordsRest? words) := by
  induction words with
  | nil => exact ReaderCuts.pure
  | cons word words ih =>
      rcases List.forall_mem_cons.mp nonempty with ⟨wordNonempty, othersNonempty⟩
      exact (word.readerCuts.afterBlanks (Word.length_rest?_lt wordNonempty)).bind
        (ih othersNonempty)

end Lexicon

end FilterQuery
