import FilterQuery.Proofs.Character.Folding

/-!
# Characters without a case

The folding table lies in a few stretches of code points, with what its runs lead to.  A character
outside them is the same letter as itself only.  Blanks are such characters, and so are the letters
and numerals that are no word characters: superscripts and fractions, and what the patterns do not
know yet.
-/

namespace FilterQuery.Character

/-! ## Ranges that keep apart -/

/-- Whether no code point from `first` to `last` lies in one of the ranges. -/
def isApart (ranges : List (Nat × Nat)) (first last : Nat) : Bool :=
  ranges.all fun range => Nat.blt last range.1 || Nat.blt range.2 first

/-- Whether one of the ranges holds all code points from `first` to `last`. -/
def isWithin (ranges : List (Nat × Nat)) (first last : Nat) : Bool :=
  ranges.any fun range => Nat.ble range.1 first && Nat.ble last range.2

theorem inRanges_of_isWithin {ranges : List (Nat × Nat)} {first last : Nat}
    (within : isWithin ranges first last = true) {c : Char} (above : first ≤ c.toNat)
    (below : c.toNat ≤ last) : inRanges ranges c = true := by
  obtain ⟨range, member, holds⟩ := List.any_eq_true.mp within
  simp only [Nat.ble_eq, Bool.and_eq_true] at holds
  exact inRanges_eq_true_iff.mpr
    ⟨range, member, Nat.le_trans holds.1 above, Nat.le_trans below holds.2⟩

/-- What lies in ranges that keep apart from others lies in none of the others. -/
theorem inRanges_of_isApart {ranges others : List (Nat × Nat)}
    (apart : others.all (fun range => isApart ranges range.1 range.2) = true) {c : Char}
    (inside : inRanges others c = true) : inRanges ranges c = false := by
  obtain ⟨other, inOthers, otherLow, otherHigh⟩ := inRanges_eq_true_iff.mp inside
  rw [Bool.eq_false_iff]
  intro inBoth
  obtain ⟨range, member, low, high⟩ := inRanges_eq_true_iff.mp inBoth
  have outside := List.all_eq_true.mp (List.all_eq_true.mp apart other inOthers) range member
  simp only [Nat.blt_eq, Bool.or_eq_true] at outside
  omega

/-! ## The stretches of the folding table -/

/-- Stretches of code points that hold ASCII and every run of the folding table, with what the run
leads to. -/
def casedStretches : List (Nat × Nat) :=
  [(0x0, 0x7f), (0xb5, 0xb5), (0xc0, 0x586), (0x10a0, 0x10ff), (0x13a0, 0x13fd),
    (0x1c80, 0x1ffc), (0x2126, 0x214e), (0x2160, 0x2184), (0x24b6, 0x24e9), (0x2c00, 0x2cf3),
    (0x2d00, 0x2d2d), (0xa640, 0xa7cd), (0xa7d0, 0xa7d1), (0xa7d6, 0xa7dc), (0xa7f5, 0xa7f6),
    (0xab53, 0xfb06), (0xff21, 0xff5a), (0x10400, 0x105bc), (0x10c80, 0x10cf2),
    (0x10d50, 0x10d85), (0x118a0, 0x118df), (0x16e40, 0x16e7f), (0x1e900, 0x1e943)]

/-- Whether a run and what it leads to lie in stretches. -/
def FoldRun.isCased (run : FoldRun) : Bool :=
  isWithin casedStretches run.first run.last &&
    isWithin casedStretches (run.first + run.shift).toNat (run.last + run.shift).toNat

theorem isCased_of_mem {run : FoldRun} (member : run ∈ foldRuns) : run.isCased = true := by
  have all : foldRuns.all FoldRun.isCased = true := by decide
  exact List.all_eq_true.mp all run member

theorem toNat_ofNat_cases (code : Nat) :
    (Char.ofNat code).toNat = code ∨ (Char.ofNat code).toNat = 0 := by
  by_cases valid : code.isValidChar
  · rw [Char.ofNat, dif_pos valid]
    exact Or.inl rfl
  · rw [Char.ofNat, dif_neg valid]
    exact Or.inr rfl

/-- A character that folds to another one lies in a stretch, and so does the other. -/
theorem inRanges_casedStretches {c : Char} (changes : fold c ≠ c) :
    inRanges casedStretches c = true ∧ inRanges casedStretches (fold c) = true := by
  have ascii {d : Char} (small : d.toNat ≤ 0x7f) : inRanges casedStretches d = true :=
    inRanges_eq_true_iff.mpr ⟨(0x0, 0x7f), List.mem_cons_self, Nat.zero_le _, small⟩
  unfold fold at changes ⊢
  split at changes
  · next small =>
      have lower : c.toLower.toNat ≤ 0x7f :=
        of_ascii (fun c => c.toLower.toNat ≤ 0x7f) small (by decide)
      rw [if_pos small]
      exact ⟨ascii (Nat.le_of_lt_succ small), ascii lower⟩
  · next large =>
      rw [if_neg large]
      split at changes
      · exact absurd rfl changes
      · next run found =>
          have covered := List.find?_some found
          have cased := isCased_of_mem (List.mem_of_find?_eq_some found)
          simp only [FoldRun.covers, FoldRun.isCased, Bool.and_eq_true, decide_eq_true_eq]
            at covered cased
          refine ⟨inRanges_of_isWithin cased.1 covered.1.1 covered.1.2, ?_⟩
          rcases toNat_ofNat_cases (c.toNat + run.shift).toNat with same | zero
          · exact inRanges_of_isWithin cased.2 (by omega) (by omega)
          · exact ascii (by omega)

section Ranges

variable {ranges : List (Nat × Nat)}
  (apart : casedStretches.all (fun range => isApart ranges range.1 range.2) = true)
include apart

/-- A character folds to itself if it lies in ranges apart from the stretches, or folds into
them. -/
theorem fold_eq_self {c : Char}
    (inside : inRanges ranges c = true ∨ inRanges ranges (fold c) = true) : fold c = c := by
  refine Decidable.byContradiction fun changes => ?_
  obtain ⟨cased, casedFold⟩ := inRanges_casedStretches changes
  rw [inRanges_of_isApart apart cased, inRanges_of_isApart apart casedFold] at inside
  simp at inside

theorem eq_of_sameLetter_of_inRanges {c letter : Char} (inside : inRanges ranges c = true)
    (same : sameLetter c letter = true) : letter = c := by
  have folded : fold c = fold letter := by simpa [sameLetter] using same
  rw [fold_eq_self apart (Or.inl inside)] at folded
  rw [folded] at inside ⊢
  exact (fold_eq_self apart (Or.inr inside)).symm

end Ranges

/-! ## Blanks and what is no word character -/

/-- The blanks beyond ASCII. -/
def wideBlankRanges : List (Nat × Nat) :=
  [(0x85, 0x85), (0xa0, 0xa0), (0x1680, 0x1680), (0x2000, 0x200a), (0x2028, 0x2029),
    (0x202f, 0x202f), (0x205f, 0x205f), (0x3000, 0x3000)]

theorem inRanges_wideBlankRanges {c : Char} (wide : ¬ c.toNat < 0x80) (blank : isBlank c = true) :
    inRanges wideBlankRanges c = true := by
  simp only [isBlank, Bool.or_eq_true, Bool.and_eq_true, decide_eq_true_eq, beq_iff_eq] at blank
  simp only [inRanges, wideBlankRanges, List.any_cons, List.any_nil, Bool.or_eq_true,
    Bool.and_eq_true, decide_eq_true_eq]
  omega

/-- A blank is the same letter as itself only. -/
theorem eq_of_sameLetter_of_isBlank {c letter : Char} (blank : isBlank c = true)
    (same : sameLetter c letter = true) : letter = c := by
  by_cases ascii : c.toNat < 0x80
  · have notAlpha : isBlank c = true → c.isAlpha = false :=
      of_ascii (fun c => isBlank c = true → c.isAlpha = false) ascii (by decide)
    exact eq_of_sameLetter ascii (notAlpha blank) same
  · exact eq_of_sameLetter_of_inRanges (by decide) (inRanges_wideBlankRanges ascii blank)
      same

/-- A letter or numeral that is no word character is the same letter as itself only. -/
theorem eq_of_sameLetter_of_not_isWord {c letter : Char} (alphanumeric : isAlphanumeric c = true)
    (notWord : isWord c = false) (same : sameLetter c letter = true) : letter = c := by
  have cases_eq : inRanges recentRanges c = true ∨ inRanges otherNumeralRanges c = true := by
    by_cases recent : isRecent c = true
    · rw [isRecent] at recent
      split at recent
      · contradiction
      · exact Or.inl recent
    · rw [Bool.not_eq_true] at recent
      simp only [isWord, recent, Bool.not_false, Bool.and_true, Bool.or_eq_false_iff] at notWord
      simp only [isAlphanumeric, notWord.1.1.1.1, notWord.1.1.2, Bool.false_or, isOtherNumeral]
        at alphanumeric
      split at alphanumeric
      · contradiction
      · exact Or.inr alphanumeric
  rcases cases_eq with recent | numeral
  · exact eq_of_sameLetter_of_inRanges (by decide) recent same
  · exact eq_of_sameLetter_of_inRanges (by decide) numeral same

/-- The blanks beyond ASCII lie in no range of letters, marks or digits. -/
theorem isWord_of_isBlank {c : Char} (blank : isBlank c = true) : isWord c = false := by
  by_cases ascii : c.toNat < 0x80
  · exact of_ascii (fun c => isBlank c = true → isWord c = false) ascii (by decide +kernel) blank
  · have wide := inRanges_wideBlankRanges ascii blank
    have outside {ranges : List (Nat × Nat)}
        (apart : wideBlankRanges.all (fun range => isApart ranges range.1 range.2) = true) :
        inRanges ranges c = false :=
      inRanges_of_isApart apart wide
    have noConnector : isConnector c = false := outside (by decide)
    have noJoiner : isJoiner c = false := by
      simp only [isBlank, Bool.or_eq_true, Bool.and_eq_true, decide_eq_true_eq, beq_iff_eq] at blank
      simp only [isJoiner, Bool.or_eq_false_iff, beq_eq_false_iff_ne]
      omega
    simp only [isWord, isAlphabetic, isMark, isDecimal, if_neg ascii, noConnector, noJoiner,
      @outside alphabeticRanges (by decide +kernel), @outside markRanges (by decide +kernel),
      @outside decimalRanges (by decide), Bool.false_or, Bool.false_and]

end FilterQuery.Character
