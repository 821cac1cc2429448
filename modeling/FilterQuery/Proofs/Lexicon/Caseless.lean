import FilterQuery.Lexicon.Find
import FilterQuery.Proofs.Lexicon.LiteralCut
import FilterQuery.Proofs.Text.Caseless

/-!
# Patterns and letter case

No pattern tells capitals from small letters: what is matched at the start of a text is matched,
with the same kind and width, at the start of its small form.
-/

namespace FilterQuery

namespace Character

/-- Word boundaries do not depend on letter case. -/
theorem isBoundary_foldAscii (text : List Char) (position : Nat) :
    isBoundary (foldAscii text) position = isBoundary text position := by
  have neighbour (c : Option Char) : isWordAt (c.map Char.toLower) = isWordAt c :=
    any_map_toLower isWord_toLower c
  unfold isBoundary
  rw [getElem?_foldAscii text position, neighbour]
  split
  · rfl
  · rw [getElem?_foldAscii, neighbour]

end Character

namespace Lexicon

open Character

/-- A reader ignores letter case when it leaves the small form of what it leaves otherwise. -/
def IgnoresCase (read : List Char → Option (List Char)) : Prop :=
  ∀ text, read (foldAscii text) = (read text).map foldAscii

namespace IgnoresCase

variable {read next : List Char → Option (List Char)}

theorem bind (first : IgnoresCase read) (second : IgnoresCase next) :
    IgnoresCase fun text => (read text).bind next := by
  intro text
  change (read (foldAscii text)).bind next = ((read text).bind next).map foldAscii
  rw [first text]
  cases read text with
  | none => rfl
  | some left => exact second left

theorem afterBlanks (ignores : IgnoresCase read) :
    IgnoresCase fun text => read (text.dropWhile isBlank) := by
  intro text
  change read ((foldAscii text).dropWhile isBlank) = _
  rw [dropWhile_foldAscii isBlank_toLower]
  exact ignores _

theorem filterWordEnd (ignores : IgnoresCase read) :
    IgnoresCase fun text => (read text).filter fun left => !isWordAt left.head? := by
  intro text
  change (read (foldAscii text)).filter _ = ((read text).filter _).map foldAscii
  rw [ignores text, Option.filter_map]
  congr 2
  funext left
  rw [Function.comp_apply, head?_foldAscii]
  exact congrArg (!·) (any_map_toLower isWord_toLower left.head?)

/-- As much is read off a text as off its small form. -/
theorem map_widthBefore (ignores : IgnoresCase read) (text : List Char) :
    (read (foldAscii text)).map (widthBefore (foldAscii text)) =
      (read text).map (widthBefore text) := by
  rw [ignores text, Option.map_map]
  congr 1
  funext left
  simp [widthBefore]

end IgnoresCase

/-! ## Keywords and names -/

theorem ignoresCase_dropLetters? (letters : List Char) : IgnoresCase (dropLetters? letters) := by
  intro text
  induction letters generalizing text with
  | nil => rfl
  | cons letter letters ih =>
      cases text with
      | nil => rfl
      | cons c text =>
          rw [foldAscii_cons, dropLetters?, dropLetters?, sameLetter_toLower]
          split
          · exact ih text
          · rfl

theorem dropS_foldAscii (text : List Char) : dropS (foldAscii text) = foldAscii (dropS text) := by
  cases text with
  | nil => rfl
  | cons c text =>
      rw [foldAscii_cons, dropS, dropS, sameLetter_toLower]
      split <;> rfl

theorem Word.ignoresCase (word : Word) : IgnoresCase word.rest? := by
  have letters := ignoresCase_dropLetters? word.letters
  unfold Word.rest?
  cases word.mayEndInS with
  | true =>
      have ending : IgnoresCase fun text => some (dropS text) :=
        fun text => congrArg some (dropS_foldAscii text)
      have both := letters.bind ending
      simpa only [if_true, Option.map_eq_bind, Function.comp_def] using both
  | false => simpa using letters

theorem ignoresCase_wordsRest? (words : List Word) : IgnoresCase (wordsRest? words) := by
  induction words with
  | nil => exact fun _ => rfl
  | cons word words ih => exact word.ignoresCase.afterBlanks.bind ih

/-- A symbol has no letters, so it is compared character by character. -/
theorem ignoresCase_isPrefixOf? {symbol : List Char}
    (letterless : Letterless symbol) : IgnoresCase symbol.isPrefixOf? := by
  intro text
  induction symbol generalizing text with
  | nil => rfl
  | cons mark symbol ih =>
      rcases letterless_cons.mp letterless with ⟨markLetterless, symbolLetterless⟩
      cases text with
      | nil => rfl
      | cons c text =>
          have same : (mark == c.toLower) = (mark == c) := by
            rw [Bool.eq_iff_iff, beq_iff_eq, beq_iff_eq, eq_comm, toLower_eq_iff markLetterless,
              eq_comm]
          rw [foldAscii_cons, List.isPrefixOf?, List.isPrefixOf?, same]
          split
          · exact ih symbolLetterless text
          · rfl

theorem symbol_letterless : ∀ keyword ∈ keywords, Letterless keyword.symbol.toList := by decide

theorem Keyword.ignoresCase {keyword : Keyword} (member : keyword ∈ keywords) :
    IgnoresCase keyword.rest? := by
  have symbol : IgnoresCase keyword.afterSymbol? := by
    unfold Keyword.afterSymbol?
    split
    · exact fun _ => rfl
    · exact ignoresCase_isPrefixOf? (symbol_letterless keyword member)
  have words : IgnoresCase keyword.afterWords? := by
    unfold Keyword.afterWords?
    cases keyword.words with
    | nil => exact fun _ => rfl
    | cons first others =>
        exact (first.ignoresCase.bind (ignoresCase_wordsRest? others)).filterWordEnd
  intro text
  rw [Keyword.rest?, Keyword.rest?, symbol text, words text]
  exact Option.map_or.symm

/-- A pattern ignores letter case when it is as wide at the start of the small form of a text. -/
def Pattern.IgnoresCase (pattern : Pattern) : Prop :=
  ∀ text, pattern.width? (foldAscii text) = pattern.width? text

theorem ignoresCase_of_mem_keywordPatterns {pattern : Pattern}
    (member : pattern ∈ keywordPatterns) : pattern.IgnoresCase := by
  obtain ⟨keyword, isKeyword, rfl⟩ := List.mem_map.mp member
  exact (Keyword.ignoresCase isKeyword).map_widthBefore

theorem ignoresCase_namePattern (name : String) : (namePattern name).IgnoresCase := by
  intro text
  change nameWidth? name.toList (foldAscii text) = nameWidth? name.toList text
  rw [nameWidth?, nameWidth?, (ignoresCase_dropLetters? name.toList).map_widthBefore]
  congr 1
  funext width
  rw [isBoundary_foldAscii]

/-! ## Literals -/

theorem firstBoundary?_foldAscii (text : List Char) (widths : List Nat) :
    firstBoundary? (foldAscii text) widths = firstBoundary? text widths := by
  rw [firstBoundary?, firstBoundary?]
  congr 1
  funext width
  exact isBoundary_foldAscii text width

theorem ignoresCase_quoted (kind : TokenKind) : Pattern.IgnoresCase ⟨kind, quotedWidth?⟩ := by
  intro text
  cases text with
  | nil => rfl
  | cons quote rest =>
      change quotedWidth? (quote.toLower :: foldAscii rest) = quotedWidth? (quote :: rest)
      rw [quotedWidth?, quotedWidth?, isQuote_toLower]
      split
      · next isQuote =>
          have letterless : quote.isAlpha = false := by
            simp only [FilterQuery.isQuote, Bool.or_eq_true, beq_iff_eq] at isQuote
            rcases isQuote with rfl | rfl <;> rfl
          have same : quote.toLower = quote := (toLower_eq_iff letterless quote).mpr rfl
          rw [same, foldAscii, List.findIdx?_map]
          congr 2
          funext c
          rw [Function.comp_apply, Bool.eq_iff_iff, beq_iff_eq, beq_iff_eq,
            toLower_eq_iff letterless]
      · rfl

theorem startsWithLayout_foldAscii {layout : List Char} (letterless : Letterless layout)
    (text : List Char) :
    startsWithLayout layout (foldAscii text) = startsWithLayout layout text := by
  induction layout generalizing text with
  | nil => rfl
  | cons mark layout ih =>
      rcases letterless_cons.mp letterless with ⟨markLetterless, layoutLetterless⟩
      cases text with
      | nil => rfl
      | cons c text =>
          have same : (c.toLower == mark) = (c == mark) := by
            rw [Bool.eq_iff_iff, beq_iff_eq, beq_iff_eq, toLower_eq_iff markLetterless]
          rw [foldAscii_cons, startsWithLayout, startsWithLayout, isDigit_toLower, same,
            ih layoutLetterless]

theorem ignoresCase_layout (kind : TokenKind) {layout ending : String}
    (letterless : Letterless (layout.toList ++ ending.toList)) :
    Pattern.IgnoresCase ⟨kind, layoutWidth? layout ending⟩ := by
  intro text
  have same : ∀ whole ∈ [layout ++ ending, layout],
      startsWithLayout whole.toList (foldAscii text) = startsWithLayout whole.toList text := by
    intro whole member
    apply startsWithLayout_foldAscii
    rcases List.mem_pair.mp member with rfl | rfl
    · rw [String.toList_append]
      exact letterless
    · exact (letterless_append.mp letterless).1
  change firstBoundary? _ _ = firstBoundary? _ _
  rw [firstBoundary?_foldAscii]
  congr 1
  apply List.filterMap_congr
  intro whole member
  rw [same whole member]

theorem unitWidth?_foldAscii (mayBeSpaced : Bool) (unit : Char) (text : List Char) :
    unitWidth? mayBeSpaced unit (foldAscii text) = unitWidth? mayBeSpaced unit text := by
  have blank : ((foldAscii text).head? == some ' ') = (text.head? == some ' ') := by
    cases text with
    | nil => rfl
    | cons c text =>
        simp only [foldAscii_cons, List.head?_cons, Option.some_beq_some]
        rw [Bool.eq_iff_iff, beq_iff_eq, beq_iff_eq, toLower_eq_iff rfl]
  have isUnit (c : Option Char) :
      (c.map Char.toLower).any (sameLetter · unit) = c.any (sameLetter · unit) :=
    any_map_toLower (fun c => sameLetter_toLower c unit) c
  rw [unitWidth?_eq, unitWidth?_eq, blank]
  simp only [unitWidthBehind?, drop_foldAscii, takeWhile_foldAscii isDigit_toLower,
    length_foldAscii, head?_foldAscii, isUnit]

theorem unitEnds_foldAscii (mayBeSpaced : Bool) (unit : Char) (text : List Char) (start : Nat) :
    unitEnds mayBeSpaced unit (foldAscii text) start = unitEnds mayBeSpaced unit text start := by
  rw [unitEnds, unitEnds, drop_foldAscii, unitWidth?_foldAscii]

theorem ignoresCase_shorthand (kind : TokenKind) :
    Pattern.IgnoresCase ⟨kind, shorthandWidth?⟩ := by
  intro text
  change firstBoundary? _ _ = firstBoundary? _ _
  rw [firstBoundary?_foldAscii]
  simp only [unitEnds_foldAscii]

theorem signWidth_foldAscii (text : List Char) : signWidth (foldAscii text) = signWidth text := by
  have blind (c : Char) : (c.toLower == '-' || c.toLower == '+') = (c == '-' || c == '+') :=
    apply_toLower (fun c => c == '-' || c == '+') (by decide) c
  rw [signWidth, signWidth, head?_foldAscii, any_map_toLower blind]

theorem fractionWidth_foldAscii (text : List Char) :
    fractionWidth (foldAscii text) = fractionWidth text := by
  cases text with
  | nil => rfl
  | cons c text =>
      by_cases point : c = '.'
      · rw [point, foldAscii_cons, show '.'.toLower = '.' from rfl, fractionWidth, fractionWidth,
          takeWhile_foldAscii isDigit_toLower, length_foldAscii]
      · have smallPoint : c.toLower ≠ '.' := fun same => point ((toLower_eq_iff rfl c).mp same)
        simp [fractionWidth, point, smallPoint]

theorem ignoresCase_number (kind : TokenKind) : Pattern.IgnoresCase ⟨kind, numberWidth?⟩ := by
  intro text
  change numberWidth? (foldAscii text) = numberWidth? text
  rw [numberWidth?_eq, numberWidth?_eq, firstBoundary?_foldAscii]
  simp only [numberReadings, signWidth_foldAscii, drop_foldAscii,
    takeWhile_foldAscii isDigit_toLower, length_foldAscii, fractionWidth_foldAscii]

theorem ignoresCase_boolean (kind : TokenKind) : Pattern.IgnoresCase ⟨kind, booleanWidth?⟩ := by
  intro text
  change firstBoundary? _ _ = firstBoundary? _ _
  rw [firstBoundary?_foldAscii]
  congr 1
  apply List.filterMap_congr
  intro letters _
  exact (ignoresCase_dropLetters? letters).map_widthBefore text

theorem isFree_toLower (c : Char) : isFree c.toLower = isFree c :=
  apply_toLower isFree (by decide) c

theorem ignoresCase_free (kind : TokenKind) : Pattern.IgnoresCase ⟨kind, freeWidth?⟩ := by
  intro text
  change freeWidth? (foldAscii text) = freeWidth? text
  simp only [freeWidth?, takeWhile_foldAscii isFree_toLower, length_foldAscii]

theorem ignoresCase_of_mem_literalPatterns {pattern : Pattern}
    (member : pattern ∈ literalPatterns) : pattern.IgnoresCase := by
  simp only [literalPatterns, List.mem_cons, List.not_mem_nil, or_false] at member
  rcases member with rfl | rfl | rfl | rfl | rfl | rfl | rfl | rfl
  · exact ignoresCase_quoted _
  · exact ignoresCase_layout _ (by decide)
  · exact ignoresCase_layout _ (by decide)
  · exact ignoresCase_layout _ (by decide)
  · exact ignoresCase_shorthand _
  · exact ignoresCase_number _
  · exact ignoresCase_boolean _
  · exact ignoresCase_free _

/-! ## The table -/

theorem Pattern.IgnoresCase.admitted?_foldAscii {pattern : Pattern} (ignores : pattern.IgnoresCase)
    (text : List Char) : pattern.admitted? (foldAscii text) = pattern.admitted? text := by
  rw [admitted?, admitted?, ignores text, head?_foldAscii, any_map_toLower isBlank_toLower]

theorem firstMatch?_foldAscii {table : List Pattern}
    (ignores : ∀ pattern ∈ table, pattern.IgnoresCase) (text : List Char) :
    firstMatch? table (foldAscii text) = firstMatch? table text := by
  induction table with
  | nil => rfl
  | cons pattern table ih =>
      rcases List.forall_mem_cons.mp ignores with ⟨patternIgnores, tableIgnores⟩
      rw [firstMatch?, firstMatch?, List.findSome?_cons, List.findSome?_cons,
        patternIgnores.admitted?_foldAscii]
      split
      · rfl
      · exact ih tableIgnores

end Lexicon

open Lexicon

/-- The table finds the same in a text and in its small form. -/
theorem Schema.match?_foldAscii (schema : Schema) (text : List Char) :
    schema.match? (foldAscii text) = schema.match? text := by
  apply firstMatch?_foldAscii
  intro pattern member
  rcases mem_patterns_cases member with keyword | ⟨name, rfl⟩ | literal
  · exact ignoresCase_of_mem_keywordPatterns keyword
  · exact ignoresCase_namePattern name
  · exact ignoresCase_of_mem_literalPatterns literal

end FilterQuery
