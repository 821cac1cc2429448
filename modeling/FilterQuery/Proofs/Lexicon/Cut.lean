import Mathlib.Data.List.Basic
import FilterQuery.Lexicon.Find
import FilterQuery.Proofs.Lexicon.Reader

/-!
# Cutting a text behind a match

When the first match of the pattern table is followed by something that does not continue a word,
the text can be cut off right behind it: what is left is matched by the same pattern and as a whole.
No pattern that was passed over before can match the shorter text, neither a longer spelling nor
one that ends at a word boundary.
-/

namespace FilterQuery

namespace Lexicon

open Character

/-- A pattern cuts when a match that ends within a text is found in the text alone, and when no
text is matched only for lack of what follows. -/
structure Pattern.Cuts (pattern : Pattern) : Prop where
  width_le {text : List Char} {width : Nat} : pattern.width? text = some width →
    width ≤ text.length
  keeps {text rest : List Char} : BreaksWord rest → (pattern.width? text).isSome = true →
    (pattern.width? (text ++ rest)).isSome = true
  cuts {text rest : List Char} {width : Nat} : BreaksWord rest → width ≤ text.length →
    pattern.width? (text ++ rest) = some width → pattern.width? text = some width

/-- A pattern that does not match in a longer text does not match in the shorter one. -/
theorem Pattern.Cuts.admitted?_eq_none {pattern : Pattern} (cuts : pattern.Cuts)
    {first : Char} {text rest : List Char} (breaks : BreaksWord rest)
    (passed : pattern.admitted? (first :: text ++ rest) = none) :
    pattern.admitted? (first :: text) = none := by
  rw [Option.eq_none_iff_forall_ne_some]
  intro width admitted
  rcases Option.filter_eq_some_iff.mp admitted with ⟨matched, admissible⟩
  simp only [List.head?_cons, Bool.and_eq_true, bne_iff_ne, ne_eq] at admissible
  have found : (pattern.width? (first :: text)).isSome = true := by rw [matched]; rfl
  rcases Option.isSome_iff_exists.mp (cuts.keeps breaks found) with ⟨longer, matchedLonger⟩
  cases longer with
  | zero =>
      rw [cuts.cuts breaks (Nat.zero_le _) matchedLonger] at matched
      exact admissible.1 (Option.some.inj matched).symm
  | succ longer =>
      rw [Pattern.admitted?, matchedLonger, Option.filter_some, if_pos] at passed
      · contradiction
      · simpa using admissible.2

/-- What a table finds is an admissible match of one of its patterns. -/
theorem exists_pattern_of_firstMatch? {table : List Pattern} {kind : TokenKind} {text : List Char}
    {width : Nat} (matched : firstMatch? table text = some (kind, width)) :
    ∃ pattern ∈ table, pattern.kind = kind ∧ pattern.admitted? text = some width := by
  obtain ⟨pattern, member, accepted⟩ := List.exists_of_findSome?_eq_some matched
  obtain ⟨_, admitted, same⟩ := Option.map_eq_some_iff.mp accepted
  cases same
  exact ⟨pattern, member, rfl, admitted⟩

theorem Pattern.width?_of_admitted? {pattern : Pattern} {text : List Char} {width : Nat}
    (admitted : pattern.admitted? text = some width) : pattern.width? text = some width :=
  (Option.filter_eq_some_iff.mp admitted).1

theorem width_le_of_firstMatch? {table : List Pattern} (cuts : ∀ pattern ∈ table, pattern.Cuts)
    {kind : TokenKind} {text : List Char} {width : Nat}
    (matched : firstMatch? table text = some (kind, width)) : width ≤ text.length := by
  obtain ⟨pattern, member, _, admitted⟩ := exists_pattern_of_firstMatch? matched
  exact (cuts pattern member).width_le (Pattern.width?_of_admitted? admitted)

/-- Cutting a text behind the first match of a table leaves the match as it is. -/
theorem firstMatch?_cut {table : List Pattern} (cuts : ∀ pattern ∈ table, pattern.Cuts)
    {kind : TokenKind} {first : Char} {text rest : List Char} (breaks : BreaksWord rest)
    (matched : firstMatch? table (first :: text ++ rest) = some (kind, (first :: text).length)) :
    firstMatch? table (first :: text) = some (kind, (first :: text).length) := by
  induction table with
  | nil => contradiction
  | cons pattern table ih =>
      rcases List.forall_mem_cons.mp cuts with ⟨patternCuts, tableCuts⟩
      unfold firstMatch? at matched ih ⊢
      rw [List.findSome?_cons] at matched ⊢
      cases admitted : pattern.admitted? (first :: text ++ rest) with
      | none =>
          rw [admitted] at matched
          rw [patternCuts.admitted?_eq_none breaks admitted]
          exact ih tableCuts matched
      | some width =>
          rw [admitted] at matched
          simp only [Option.map_some, Option.some.injEq, Prod.mk.injEq] at matched
          rcases matched with ⟨rfl, rfl⟩
          rcases Option.filter_eq_some_iff.mp admitted with ⟨matchedLonger, admissible⟩
          have matchedText := patternCuts.cuts breaks (Nat.le_refl _) matchedLonger
          rw [Pattern.admitted?, matchedText, Option.filter_some,
            if_pos (by simpa using admissible)]
          rfl

/-! ## Keywords and names -/

theorem widthBefore_append {text left : List Char} (rest : List Char)
    (within : left.length ≤ text.length) :
    widthBefore (text ++ rest) (left ++ rest) = widthBefore text left := by
  simp only [widthBefore, List.length_append]
  omega

/-- A reader that cuts finds the same width in a text alone. -/
theorem ReaderCuts.width_cut {read : List Char → Option (List Char)} (cuts : ReaderCuts read)
    {text rest left : List Char} (breaks : BreaksWord rest)
    (readLeft : read (text ++ rest) = some left)
    (within : widthBefore (text ++ rest) left ≤ text.length) :
    ∃ kept, read text = some kept ∧ left = kept ++ rest ∧
      widthBefore (text ++ rest) left = widthBefore text kept := by
  have shorter := cuts.length_le readLeft
  simp only [widthBefore, List.length_append] at within shorter
  obtain ⟨kept, readKept, rfl⟩ := cuts.cut breaks (by omega) readLeft
  exact ⟨kept, readKept, rfl, widthBefore_append rest (cuts.length_le readKept)⟩

theorem isPrefixOf?_eq_some_iff {letters text left : List Char} :
    letters.isPrefixOf? text = some left ↔ text = letters ++ left := by
  induction letters generalizing text with
  | nil => simp [List.isPrefixOf?, eq_comm]
  | cons letter letters ih =>
      cases text with
      | nil => simp [List.isPrefixOf?]
      | cons c text =>
          rw [List.isPrefixOf?]
          by_cases same : letter = c
          · simp [same, ih]
          · simp [same, Ne.symm same]

theorem Keyword.readerCuts_afterSymbol? (keyword : Keyword) : ReaderCuts keyword.afterSymbol? where
  length_le {text left} read := by
    unfold afterSymbol? at read
    split at read
    · contradiction
    · rw [isPrefixOf?_eq_some_iff] at read
      simp [read]
  append {text left rest} _ read := by
    unfold afterSymbol? at read ⊢
    split at read
    · contradiction
    · next isSymbol =>
        rw [if_neg isSymbol, isPrefixOf?_eq_some_iff]
        rw [isPrefixOf?_eq_some_iff] at read
        rw [read, List.append_assoc]
  cut {text left rest} _ within read := by
    unfold afterSymbol? at read ⊢
    split at read
    · contradiction
    · next isSymbol =>
        rw [isPrefixOf?_eq_some_iff] at read
        rcases List.append_eq_append_iff.mp read with ⟨more, symbol_eq, rfl⟩ | ⟨more, rfl, rfl⟩
        · have empty : more = [] := by
            simp only [List.length_append] at within
            exact List.eq_nil_of_length_eq_zero (by omega)
          refine ⟨[], ?_, by simp [empty]⟩
          rw [if_neg isSymbol, isPrefixOf?_eq_some_iff, symbol_eq, empty]
          simp
        · refine ⟨more, ?_, rfl⟩
          rw [if_neg isSymbol, isPrefixOf?_eq_some_iff]

theorem Keyword.readerCuts_afterWords? {keyword : Keyword}
    (nonempty : ∀ word ∈ keyword.words, word.letters ≠ []) : ReaderCuts keyword.afterWords? := by
  unfold afterWords?
  cases words : keyword.words with
  | nil =>
      constructor
      · intro _ _ read
        contradiction
      · intro _ _ _ _ read
        contradiction
      · intro _ _ _ _ _ read
        contradiction
  | cons first others =>
      rw [words] at nonempty
      rcases List.forall_mem_cons.mp nonempty with ⟨_, othersNonempty⟩
      exact (first.readerCuts.bind (readerCuts_wordsRest? othersNonempty)).filterWordEnd

theorem Keyword.cuts_pattern {keyword : Keyword}
    (nonempty : ∀ word ∈ keyword.words, word.letters ≠ []) : keyword.pattern.Cuts where
  width_le matched := by
    rcases Option.map_eq_some_iff.mp matched with ⟨left, _, rfl⟩
    exact Nat.sub_le _ _
  keeps {text rest} breaks matched := by
    simp only [pattern, rest?, Option.isSome_map, Option.isSome_or, Bool.or_eq_true] at matched ⊢
    rcases matched with symbol | words
    · rcases Option.isSome_iff_exists.mp symbol with ⟨left, read⟩
      exact Or.inl (by rw [keyword.readerCuts_afterSymbol?.append breaks read]; rfl)
    · rcases Option.isSome_iff_exists.mp words with ⟨left, read⟩
      exact Or.inr (by rw [(readerCuts_afterWords? nonempty).append breaks read]; rfl)
  cuts {text rest width} breaks within matched := by
    simp only [pattern, rest?, Option.map_eq_some_iff, Option.or_eq_some_iff] at matched ⊢
    rcases matched with ⟨left, symbol | ⟨noSymbol, words⟩, rfl⟩
    · rcases keyword.readerCuts_afterSymbol?.width_cut breaks symbol within with
        ⟨kept, read, _, same⟩
      exact ⟨kept, Or.inl read, same.symm⟩
    · rcases (readerCuts_afterWords? nonempty).width_cut breaks words within with
        ⟨kept, read, _, same⟩
      refine ⟨kept, Or.inr ⟨?_, read⟩, same.symm⟩
      rw [Option.eq_none_iff_forall_ne_some]
      intro other readSymbol
      rw [keyword.readerCuts_afterSymbol?.append breaks readSymbol] at noSymbol
      contradiction

theorem words_nonempty : ∀ keyword ∈ keywords, ∀ word ∈ keyword.words, word.letters ≠ [] := by
  decide

theorem cuts_of_mem_keywordPatterns {pattern : Pattern} (member : pattern ∈ keywordPatterns) :
    pattern.Cuts := by
  rcases List.mem_map.mp member with ⟨keyword, inTable, rfl⟩
  exact Keyword.cuts_pattern (words_nonempty keyword inTable)

theorem cuts_namePattern (name : String) : (namePattern name).Cuts := by
  have reader := readerCuts_dropLetters? name.toList
  constructor
  · intro text width matched
    rcases Option.map_eq_some_iff.mp (Option.filter_eq_some_iff.mp matched).1 with ⟨left, _, rfl⟩
    exact Nat.sub_le _ _
  · intro text rest breaks matched
    rcases Option.isSome_iff_exists.mp matched with ⟨width, matched⟩
    rcases Option.filter_eq_some_iff.mp matched with ⟨matched, ends⟩
    rcases Option.map_eq_some_iff.mp matched with ⟨left, read, rfl⟩
    have within : widthBefore text left ≤ text.length := Nat.sub_le _ _
    simp only [namePattern, nameWidth?, reader.append breaks read, Option.map_some,
      widthBefore_append rest (reader.length_le read), Option.filter_some,
      isBoundary_append breaks within]
    rw [if_pos ends]
    rfl
  · intro text rest width breaks within matched
    rcases Option.filter_eq_some_iff.mp matched with ⟨matched, ends⟩
    rcases Option.map_eq_some_iff.mp matched with ⟨left, read, rfl⟩
    obtain ⟨kept, readKept, _, same⟩ := reader.width_cut breaks read within
    rw [isBoundary_append breaks within, same] at ends
    simp only [namePattern, nameWidth?, readKept, Option.map_some, Option.filter_some, same]
    rw [if_pos ends]

end Lexicon

end FilterQuery
