import FilterQuery.Proofs.Character.Caseless
import FilterQuery.Proofs.Lexicon.Caseless
import FilterQuery.Proofs.Lexicon.Reader

/-!
# Written words

The words of a keyword are written in any letter case, with any blanks or none between them, and
verbs in the third person as well.  Whatever is written so is read off a text as the words, and what
is read as plain words, of letters that nothing outside ASCII folds to, is written so.
-/

namespace FilterQuery

open Character

namespace Lexicon

/-- A text is a word in any letter case, or its third person if it is a verb. -/
def Word.WrittenAs (word : Word) (text : List Char) : Prop :=
  foldAscii text = word.letters ∨ word.mayEndInS = true ∧ foldAscii text = word.letters ++ ['s']

/-- A text consists of words, with any blanks or none between them. -/
inductive WrittenWords : List Word → List Char → Prop
  | last {word : Word} {text : List Char} (written : word.WrittenAs text) :
      WrittenWords [word] text
  | cons {word : Word} {words : List Word} {text gap more : List Char}
      (written : word.WrittenAs text) (blank : ∀ c ∈ gap, isBlank c = true)
      (others : WrittenWords words more) : WrittenWords (word :: words) (text ++ gap ++ more)

/-- A text begins with words behind any blanks or none, and no word goes on behind them. -/
def GoesOnWith (words : List Word) (text : List Char) : Prop :=
  ∃ gap written left, text = gap ++ written ++ left ∧ (∀ c ∈ gap, isBlank c = true) ∧
    WrittenWords words written ∧ BreaksWord left

theorem dropLetters?_of_foldAscii {letters text : List Char} (rest : List Char)
    (written : foldAscii text = letters) : dropLetters? letters (text ++ rest) = some rest := by
  have folded := ignoresCase_dropLetters? letters text
  have whole := dropLetters?_self letters []
  rw [List.append_nil] at whole
  rw [written, whole, eq_comm, Option.map_eq_some_iff] at folded
  obtain ⟨left, dropped, empty⟩ := folded
  have left_eq : left = [] := by simpa [foldAscii] using empty
  rw [dropLetters?_append rest dropped, left_eq, List.nil_append]

/-- A word is read as it is written, if no `s` follows. -/
theorem Word.WrittenAs.rest?_eq {word : Word} {text rest : List Char} (written : word.WrittenAs text)
    (noS : word.mayEndInS = true → ∀ c ∈ rest.head?, sameLetter c 's' = false) :
    word.rest? (text ++ rest) = some rest := by
  have kept (verb : word.mayEndInS = true) : dropS rest = rest := by
    cases rest with
    | nil => rfl
    | cons c rest => rw [dropS, noS verb c rfl, if_neg Bool.false_ne_true]
  rcases written with plain | ⟨verb, third⟩
  · rw [Word.rest?, dropLetters?_of_foldAscii rest plain, Option.map_some]
    split
    · next verb => rw [kept verb]
    · rfl
  · have both := dropLetters?_of_foldAscii rest third
    rw [dropLetters?_bind, Option.bind_eq_some_iff] at both
    obtain ⟨middle, dropped, ending⟩ := both
    rw [Word.rest?, dropped, Option.map_some, if_pos verb]
    cases middle with
    | nil => contradiction
    | cons c middle =>
        rw [dropLetters?, Option.ite_none_right_eq_some] at ending
        obtain ⟨isS, same⟩ := ending
        cases same
        rw [dropS, if_pos isS]

/-- Blanks in front of words are passed over. -/
theorem wordsRest?_blanks {words : List Word} {gap : List Char} (text : List Char)
    (blank : ∀ c ∈ gap, isBlank c = true) (nonempty : words ≠ []) :
    wordsRest? words (gap ++ text) = wordsRest? words text := by
  obtain ⟨word, words, rfl⟩ := List.exists_cons_of_ne_nil nonempty
  rw [wordsRest?, wordsRest?, List.dropWhile_append_of_pos blank]

/-- Whether the first letter of a word has a property. -/
def Word.begins (property : Char → Bool) (word : Word) : Bool :=
  word.letters.head?.any property

/-- Whether all words begin with something that is not blank, and none behind a verb with an `s`. -/
def areClear : List Word → Bool
  | [] => true
  | word :: words =>
      word.begins (!isBlank ·) &&
        (!word.mayEndInS || words.head?.all (Word.begins (!sameLetter · 's'))) && areClear words

section Begin

variable {property : Char → Bool} (blind : ∀ c, property c.toLower = property c)
include blind

/-- What does not depend on letter case holds of a written word if it holds of the word. -/
theorem Word.WrittenAs.any_head? {word : Word} {text : List Char} (written : word.WrittenAs text)
    (begins : word.begins property = true) (rest : List Char) :
    (text ++ rest).head?.any property = true := by
  rw [Word.begins] at begins
  cases shape : word.letters with
  | nil => simp [shape] at begins
  | cons letter letters =>
      have folded : ∃ more, foldAscii text = letter :: more := by
        rcases written with plain | ⟨_, third⟩
        · exact ⟨letters, by rw [plain, shape]⟩
        · exact ⟨letters ++ ['s'], by rw [third, shape, List.cons_append]⟩
      obtain ⟨more, folded⟩ := folded
      cases text with
      | nil => contradiction
      | cons c text =>
          rw [foldAscii_cons, List.cons.injEq] at folded
          have holds : property letter = true := by simpa [shape] using begins
          rw [List.cons_append, List.head?_cons, Option.any_some, ← blind c, folded.1, holds]

theorem WrittenWords.any_head? {words : List Word} {text : List Char}
    (written : WrittenWords words text)
    (begins : words.head?.all (Word.begins property) = true) : text.head?.any property = true := by
  cases written with
  | last written =>
      have holds := written.any_head? blind begins []
      rwa [List.append_nil] at holds
  | cons written _ _ =>
      rw [List.append_assoc]
      exact written.any_head? blind begins _

end Begin

theorem not_isBlank_toLower (c : Char) : (!isBlank c.toLower) = !isBlank c := by
  rw [isBlank_toLower]

/-- Words begin with something that is not blank. -/
theorem WrittenWords.visible {words : List Word} {text : List Char}
    (written : WrittenWords words text) (clear : areClear words = true) :
    text.head?.any (!isBlank ·) = true := by
  apply written.any_head? not_isBlank_toLower
  cases words with
  | nil => rfl
  | cons word words =>
      simp only [areClear, Bool.and_eq_true] at clear
      exact clear.1.1

theorem dropWhile_isBlank {text : List Char} (visible : text.head?.any (!isBlank ·) = true) :
    text.dropWhile isBlank = text := by
  cases text with
  | nil => rfl
  | cons c text => exact List.dropWhile_cons_of_neg (by simpa using visible)

/-- Words are read as they are written. -/
theorem WrittenWords.wordsRest?_eq {words : List Word} {text : List Char}
    (written : WrittenWords words text) (clear : areClear words = true) :
    wordsRest? words text = some [] := by
  have sBlind (c : Char) : (!sameLetter c.toLower 's') = !sameLetter c 's' := by
    rw [sameLetter_toLower]
  induction written with
  | @last word text written =>
      simp only [areClear, Bool.and_eq_true] at clear
      have visible := written.any_head? not_isBlank_toLower clear.1.1 []
      have read : word.rest? (text ++ []) = some [] := written.rest?_eq (by simp)
      rw [List.append_nil] at visible read
      rw [wordsRest?, dropWhile_isBlank visible, read]
      rfl
  | @cons word words text gap more written blank others ih =>
      simp only [areClear, Bool.and_eq_true, Bool.or_eq_true, Bool.not_eq_true'] at clear
      obtain ⟨⟨wordVisible, behindVerb⟩, othersClear⟩ := clear
      have nonempty : words ≠ [] := by
        rintro rfl
        cases others
      have noS (verb : word.mayEndInS = true) : ∀ c ∈ (gap ++ more).head?, sameLetter c 's' = false := by
        intro c first
        cases gap with
        | nil =>
            have begins := behindVerb.resolve_left (by simp [verb])
            have holds := others.any_head? sBlind begins
            rw [List.nil_append, Option.mem_def] at first
            simpa [first] using holds
        | cons d gap =>
            cases first
            rw [Bool.eq_false_iff]
            intro same
            have isS := eq_of_sameLetter_of_isBlank (blank c List.mem_cons_self) same
            have sBlank := blank c List.mem_cons_self
            rw [← isS] at sBlank
            exact absurd sBlank (by decide)
      have visible := written.any_head? not_isBlank_toLower wordVisible (gap ++ more)
      rw [List.append_assoc, wordsRest?, dropWhile_isBlank visible, written.rest?_eq noS,
        Option.bind_some, wordsRest?_blanks more blank nonempty]
      exact ih othersClear

/-! ## Words behind a text -/

/-- A letter that no character outside ASCII folds to. -/
def isPlain (letter : Char) : Bool :=
  letter.isLower && letter != 's' && letter != 'k'

theorem toLower_eq_of_sameLetter {c letter : Char} (plain : isPlain letter = true)
    (same : sameLetter c letter = true) : c.toLower = letter := by
  have ascii : letter.toNat < 0x80 := by
    simp only [isPlain, Bool.and_eq_true] at plain
    have upper := UInt32.le_iff_toNat_le.mp (of_decide_eq_true (Bool.and_eq_true_iff.mp plain.1.1).2)
    exact Nat.lt_of_le_of_lt upper (by decide)
  have kept : isPlain letter = true → fold letter = letter :=
    of_ascii (fun letter => isPlain letter = true → fold letter = letter) ascii (by decide)
  have fold_eq : fold c = letter := by
    rw [← kept plain]
    simpa [sameLetter] using same
  rw [← fold_eq] at plain ascii ⊢
  revert plain
  apply of_fold_ascii (fun c => isPlain (fold c) = true → c.toLower = fold c) ascii
  · decide
  · decide
  · decide

/-- Plain letters that are read off a text stand there in some letter case. -/
theorem exists_of_dropLetters? {letters text left : List Char} (plain : letters.all isPlain = true)
    (dropped : dropLetters? letters text = some left) :
    ∃ written, text = written ++ left ∧ foldAscii written = letters := by
  induction letters generalizing text with
  | nil =>
      cases dropped
      exact ⟨[], rfl, rfl⟩
  | cons letter letters ih =>
      rw [List.all_cons, Bool.and_eq_true] at plain
      cases text with
      | nil => contradiction
      | cons c text =>
          rw [dropLetters?, Option.ite_none_right_eq_some] at dropped
          obtain ⟨written, rfl, folded⟩ := ih plain.2 dropped.2
          refine ⟨c :: written, rfl, ?_⟩
          rw [foldAscii_cons, folded, toLower_eq_of_sameLetter plain.1 dropped.1]

/-- Plain words that are read off a text are written there. -/
theorem exists_of_wordsRest? {words : List Word} {text left : List Char}
    (plain : ∀ word ∈ words, word.mayEndInS = false ∧ word.letters.all isPlain = true)
    (nonempty : words ≠ []) (read : wordsRest? words text = some left) :
    ∃ gap written, text = gap ++ written ++ left ∧ (∀ c ∈ gap, isBlank c = true) ∧
      WrittenWords words written := by
  induction words generalizing text with
  | nil => contradiction
  | cons word words ih =>
      obtain ⟨⟨noVerb, letters⟩, othersPlain⟩ := List.forall_mem_cons.mp plain
      rw [wordsRest?, Option.bind_eq_some_iff] at read
      obtain ⟨middle, readWord, readOthers⟩ := read
      rw [Word.rest?, noVerb, Option.map_eq_some_iff] at readWord
      obtain ⟨_, dropped, rfl⟩ := readWord
      rw [if_neg Bool.false_ne_true] at readOthers
      obtain ⟨written, shape, folded⟩ := exists_of_dropLetters? letters dropped
      have blank : ∀ c ∈ text.takeWhile isBlank, isBlank c = true :=
        List.all_eq_true.mp List.all_takeWhile
      have text_eq := List.takeWhile_append_dropWhile (p := isBlank) (l := text)
      rw [shape] at text_eq
      generalize text.takeWhile isBlank = front at *
      cases words with
      | nil =>
          cases readOthers
          exact ⟨front, written, by rw [← text_eq, List.append_assoc], blank, .last (Or.inl folded)⟩
      | cons next others =>
          obtain ⟨gap, more, rfl, gapBlank, othersWritten⟩ := ih othersPlain (by simp) readOthers
          refine ⟨front, written ++ gap ++ more, ?_, blank,
            .cons (Or.inl folded) gapBlank othersWritten⟩
          rw [← text_eq]
          simp only [List.append_assoc]

/-- A text that does not go on with plain words goes on with a word behind what is read as them. -/
theorem isWordAt_of_not_goesOnWith {words : List Word} {text left : List Char}
    (plain : ∀ word ∈ words, word.mayEndInS = false ∧ word.letters.all isPlain = true)
    (nonempty : words ≠ []) (ends : ¬ GoesOnWith words text)
    (read : wordsRest? words text = some left) : isWordAt left.head? = true := by
  by_contra stops
  obtain ⟨gap, written, text_eq, blank, isWritten⟩ := exists_of_wordsRest? plain nonempty read
  exact ends ⟨gap, written, left, text_eq, blank, isWritten, Bool.eq_false_iff.mpr stops⟩

end Lexicon

end FilterQuery
