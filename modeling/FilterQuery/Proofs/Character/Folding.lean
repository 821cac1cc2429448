import FilterQuery.Character.Casing
import FilterQuery.Character.Property

/-!
# Letters that fold to ASCII

Beside the ASCII characters themselves only the long s and the Kelvin sign fold to ASCII.  Both are
letters, so a character that is the same letter as an ASCII letter is a word character, and the
only character that is the same letter as an ASCII digit is the digit itself.
-/

namespace FilterQuery.Character

/-- The long s, which folds to `s`. -/
def longS : Char := '\u017f'

/-- The Kelvin sign, which folds to `k`. -/
def kelvinSign : Char := '\u212a'

/-- Whether a run leads from a character outside ASCII to another, the runs of the long s and of
the Kelvin sign apart. -/
def FoldRun.avoidsAscii (run : FoldRun) : Bool :=
  run.last < 0x80 || (run.first == 0x17f && run.last == 0x17f) ||
    (run.first == 0x212a && run.last == 0x212a) ||
    (0x80 ≤ run.first + run.shift && run.last + run.shift < 0xd800) ||
    (0xe000 ≤ run.first + run.shift && run.last + run.shift < 0x110000)

theorem avoidsAscii_of_mem {run : FoldRun} (member : run ∈ foldRuns) :
    run.avoidsAscii = true := by
  have all : foldRuns.all FoldRun.avoidsAscii = true := by decide
  exact List.all_eq_true.mp all run member

/-- A character that folds to ASCII is an ASCII character, the long s or the Kelvin sign. -/
theorem ascii_of_fold_ascii {c : Char} (ascii : (fold c).toNat < 0x80) :
    c.toNat < 0x80 ∨ c = longS ∨ c = kelvinSign := by
  unfold fold at ascii
  split at ascii
  · next small => exact Or.inl small
  · next large =>
      split at ascii
      · exact absurd ascii large
      · next run found =>
          have avoids := avoidsAscii_of_mem (List.mem_of_find?_eq_some found)
          have covered := List.find?_some found
          simp only [FoldRun.covers, FoldRun.avoidsAscii, Bool.and_eq_true, Bool.or_eq_true,
            decide_eq_true_eq, beq_iff_eq] at covered avoids
          rcases avoids with (((small | long) | kelvin) | low) | high
          · omega
          · exact Or.inr (Or.inl (Char.toNat_inj.mp (show c.toNat = 0x17f by omega)))
          · exact Or.inr (Or.inr (Char.toNat_inj.mp (show c.toNat = 0x212a by omega)))
          · rw [Char.ofNat, dif_pos (Or.inl (by omega))] at ascii
            change (c.toNat + run.shift).toNat < 0x80 at ascii
            omega
          · rw [Char.ofNat, dif_pos (Or.inr (by omega))] at ascii
            change (c.toNat + run.shift).toNat < 0x80 at ascii
            omega

/-- What holds of every ASCII code point holds of every ASCII character. -/
theorem of_ascii (property : Char → Prop) {c : Char} (ascii : c.toNat < 0x80)
    (each : ∀ code < 0x80, property (Char.ofNat code)) : property c := by
  rw [← Char.ofNat_toNat c]
  exact each c.toNat ascii

/-- What holds of every ASCII character, the long s and the Kelvin sign holds of all characters
that fold to ASCII. -/
theorem of_fold_ascii (property : Char → Prop) {c : Char} (ascii : (fold c).toNat < 0x80)
    (basic : ∀ code < 0x80, property (Char.ofNat code)) (long : property longS)
    (kelvin : property kelvinSign) : property c := by
  rcases ascii_of_fold_ascii ascii with small | rfl | rfl
  · exact of_ascii property small basic
  · exact long
  · exact kelvin

/-- An ASCII character that is not a letter is the same letter as itself only. -/
theorem eq_of_sameLetter {mark letter : Char} (ascii : mark.toNat < 0x80)
    (notAlpha : mark.isAlpha = false) (same : sameLetter mark letter = true) : letter = mark := by
  have unfolded : mark.isAlpha = false → fold mark = mark :=
    of_ascii (fun mark => mark.isAlpha = false → fold mark = mark) ascii (by decide)
  have fold_eq : fold letter = mark := by
    have folded : fold mark = fold letter := by simpa [sameLetter] using same
    rw [← folded, unfolded notAlpha]
  have kept : (fold letter).isAlpha = false → fold letter = letter := by
    apply of_fold_ascii (fun letter => (fold letter).isAlpha = false → fold letter = letter)
    · rw [fold_eq]
      exact ascii
    · decide
    · decide
    · decide
  rw [← fold_eq]
  apply (kept _).symm
  rw [fold_eq]
  exact notAlpha

/-- What folds to a small ASCII letter is a letter and a word character. -/
theorem letter_of_fold_isLower {c : Char} (lower : (fold c).isLower = true) :
    isWord c = true ∧ isAlphanumeric c = true := by
  have ascii : (fold c).toNat < 0x80 := by
    have upper : (fold c).val.toNat ≤ 0x7a :=
      UInt32.le_iff_toNat_le.mp (of_decide_eq_true (Bool.and_eq_true_iff.mp lower).2)
    change (fold c).val.toNat < 0x80
    omega
  revert lower
  apply of_fold_ascii
    (fun c => (fold c).isLower = true → isWord c = true ∧ isAlphanumeric c = true) ascii
  · decide
  · decide
  · decide +kernel

end FilterQuery.Character
