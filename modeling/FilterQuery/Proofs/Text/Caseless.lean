import FilterQuery.Proofs.Character.Folding
import FilterQuery.Text

/-!
# Texts with small letters

Making the ASCII capitals of a text small changes letters only.  So it is not seen by a test that
does not tell capitals from small letters, and a text without letters stays as it is.
-/

namespace FilterQuery

namespace Character

/-- A character is its own small form, or it is a capital letter. -/
theorem toLower_cases (c : Char) :
    c.toLower = c ∨ ∃ index < 26, c = Char.ofNat (0x41 + index) ∧
      c.toLower = Char.ofNat (0x61 + index) := by
  by_cases ascii : c.toNat < 0x80
  · exact of_ascii (fun c => c.toLower = c ∨ ∃ index < 26, c = Char.ofNat (0x41 + index) ∧
      c.toLower = Char.ofNat (0x61 + index)) ascii (by decide)
  · left
    apply dif_neg
    rintro ⟨_, small⟩
    exact ascii (Nat.lt_of_le_of_lt (UInt32.le_iff_toNat_le.mp small) (by decide))

/-- What is the same for a capital and its small letter is the same for every character and its
small form. -/
theorem apply_toLower {α : Type} (view : Char → α)
    (letters : ∀ index < 26, view (Char.ofNat (0x61 + index)) = view (Char.ofNat (0x41 + index)))
    (c : Char) : view c.toLower = view c := by
  rcases toLower_cases c with same | ⟨index, isLetter, capital, small⟩
  · rw [same]
  · rw [small, letters index isLetter, ← capital]

theorem isAlpha_toLower (c : Char) : c.toLower.isAlpha = c.isAlpha :=
  apply_toLower Char.isAlpha (by decide) c

theorem isBlank_toLower (c : Char) : isBlank c.toLower = isBlank c :=
  apply_toLower isBlank (by decide) c

theorem isDigit_toLower (c : Char) : isDigit c.toLower = isDigit c :=
  apply_toLower isDigit (by decide) c

theorem isWord_toLower (c : Char) : isWord c.toLower = isWord c :=
  apply_toLower isWord (by decide) c

theorem fold_toLower (c : Char) : fold c.toLower = fold c :=
  apply_toLower fold (by decide) c

/-- A mark that is no letter is the small form of itself only. -/
theorem toLower_eq_iff {mark : Char} (notAlpha : mark.isAlpha = false) (c : Char) :
    c.toLower = mark ↔ c = mark := by
  rcases toLower_cases c with same | ⟨index, isLetter, capital, _⟩
  · rw [same]
  · have capitals : ∀ index < 26, (Char.ofNat (0x41 + index)).isAlpha = true := by decide
    have alpha : c.isAlpha = true := capital ▸ capitals index isLetter
    constructor
    · rintro rfl
      rw [isAlpha_toLower, alpha] at notAlpha
      contradiction
    · rintro rfl
      rw [notAlpha] at alpha
      contradiction

theorem sameLetter_toLower (c letter : Char) :
    sameLetter c.toLower letter = sameLetter c letter := by
  rw [sameLetter, sameLetter, fold_toLower]

end Character

open Character

theorem isQuote_toLower (c : Char) : isQuote c.toLower = isQuote c :=
  apply_toLower isQuote (by decide) c

@[simp]
theorem foldAscii_nil : foldAscii [] = [] :=
  rfl

@[simp]
theorem foldAscii_cons (c : Char) (text : List Char) :
    foldAscii (c :: text) = c.toLower :: foldAscii text :=
  rfl

@[simp]
theorem length_foldAscii (text : List Char) : (foldAscii text).length = text.length :=
  List.length_map _

@[simp]
theorem drop_foldAscii (text : List Char) (count : Nat) :
    (foldAscii text).drop count = foldAscii (text.drop count) :=
  List.map_drop.symm

@[simp]
theorem take_foldAscii (text : List Char) (count : Nat) :
    (foldAscii text).take count = foldAscii (text.take count) :=
  List.map_take.symm

@[simp]
theorem getElem?_foldAscii (text : List Char) (index : Nat) :
    (foldAscii text)[index]? = text[index]?.map Char.toLower :=
  List.getElem?_map

@[simp]
theorem head?_foldAscii (text : List Char) :
    (foldAscii text).head? = text.head?.map Char.toLower :=
  List.head?_map

theorem foldAscii_foldAscii (text : List Char) : foldAscii (foldAscii text) = foldAscii text := by
  rw [foldAscii, foldAscii, List.map_map]
  apply List.map_congr_left
  intro c _
  exact apply_toLower Char.toLower (by decide) c

/-- A text without letters. -/
def Letterless (text : List Char) : Prop :=
  ∀ c ∈ text, c.isAlpha = false

instance : DecidablePred Letterless :=
  fun text => List.decidableBAll (fun c : Char => c.isAlpha = false) text

theorem letterless_cons {c : Char} {text : List Char} :
    Letterless (c :: text) ↔ c.isAlpha = false ∧ Letterless text :=
  List.forall_mem_cons

theorem letterless_append {front back : List Char} :
    Letterless (front ++ back) ↔ Letterless front ∧ Letterless back :=
  List.forall_mem_append

/-- Only texts without letters have a small form without letters. -/
theorem letterless_foldAscii {text : List Char} :
    Letterless (foldAscii text) ↔ Letterless text := by
  simp only [Letterless, foldAscii, List.forall_mem_map, isAlpha_toLower]

/-- A text without letters has no capitals. -/
theorem foldAscii_eq_self {text : List Char} (letterless : Letterless text) :
    foldAscii text = text :=
  calc text.map Char.toLower
    _ = text.map id :=
        List.map_congr_left fun c member => (toLower_eq_iff (letterless c member) c).mpr rfl
    _ = text := List.map_id text

/-- What is read off texts without letters only is read off the small form of a text as well. -/
theorem apply_foldAscii {α : Type} {read : List Char → Option α}
    (letterless : ∀ {text a}, read text = some a → Letterless text) (text : List Char) :
    read (foldAscii text) = read text := by
  cases found : read text with
  | some a => rw [foldAscii_eq_self (letterless found), found]
  | none =>
      cases foundSmall : read (foldAscii text) with
      | none => rfl
      | some a =>
          rw [foldAscii_eq_self (letterless_foldAscii.mp (letterless foundSmall)), found]
            at foundSmall
          contradiction

section Tests

variable {p : Char → Bool} (blind : ∀ c, p c.toLower = p c)
include blind

theorem takeWhile_foldAscii (text : List Char) :
    (foldAscii text).takeWhile p = foldAscii (text.takeWhile p) := by
  rw [foldAscii, List.takeWhile_map]
  exact congrArg (foldAscii <| text.takeWhile ·) (funext blind)

theorem dropWhile_foldAscii (text : List Char) :
    (foldAscii text).dropWhile p = foldAscii (text.dropWhile p) := by
  rw [foldAscii, List.dropWhile_map]
  exact congrArg (foldAscii <| text.dropWhile ·) (funext blind)

theorem any_map_toLower (c : Option Char) : (c.map Char.toLower).any p = c.any p := by
  cases c with
  | none => rfl
  | some c => exact blind c

end Tests

/-! ## Strings -/

/-- A string with its ASCII capitals made small. -/
def toSmall (text : String) : String :=
  String.ofList (foldAscii text.toList)

theorem toList_toSmall (text : String) : (toSmall text).toList = foldAscii text.toList :=
  String.toList_ofList

theorem toSmall_append (front back : String) :
    toSmall (front ++ back) = toSmall front ++ toSmall back := by
  rw [← String.toList_inj, toList_toSmall, String.toList_append, String.toList_append,
    toList_toSmall, toList_toSmall]
  exact List.map_append

theorem toSmall_toSmall (text : String) : toSmall (toSmall text) = toSmall text := by
  rw [toSmall, toList_toSmall, foldAscii_foldAscii, toSmall]

/-- Texts that agree up to letter case have the same small form. -/
theorem sameCaseless_iff_toSmall {left right : String} :
    sameCaseless left right = true ↔ toSmall left = toSmall right := by
  rw [sameCaseless_eq_true_iff, toSmall, toSmall, String.ofList_inj]

theorem sameCaseless_toSmall (left right : String) :
    sameCaseless left (toSmall right) = sameCaseless left right := by
  rw [Bool.eq_iff_iff, sameCaseless_iff_toSmall, sameCaseless_iff_toSmall, toSmall_toSmall]

theorem dropLeadingQuote_foldAscii (text : List Char) :
    dropLeadingQuote (foldAscii text) = foldAscii (dropLeadingQuote text) := by
  cases text with
  | nil => rfl
  | cons c text =>
      rw [foldAscii_cons, dropLeadingQuote, dropLeadingQuote, isQuote_toLower]
      split <;> rfl

theorem dropTrailingQuote_foldAscii (text : List Char) :
    dropTrailingQuote (foldAscii text) = foldAscii (dropTrailingQuote text) := by
  have ends : (foldAscii text).getLast? = text.getLast?.map Char.toLower := List.getLast?_map
  rw [dropTrailingQuote, dropTrailingQuote, ends, any_map_toLower isQuote_toLower]
  split
  · exact List.map_dropLast.symm
  · rfl

theorem stripQuotes_toSmall (text : String) :
    stripQuotes (toSmall text) = toSmall (stripQuotes text) := by
  rw [stripQuotes, toList_toSmall, dropLeadingQuote_foldAscii, dropTrailingQuote_foldAscii, toSmall,
    stripQuotes, String.toList_ofList]

end FilterQuery
