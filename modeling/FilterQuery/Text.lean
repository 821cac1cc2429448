/-!
# Texts

Names are compared without regard to the case of ASCII letters, a text may stand in quotes, and
numbers, dates and spans of time are read from runs of ASCII digits and written back as such.
-/

namespace FilterQuery

/-! ## Letter case

Names, labels and lookups are compared letter by letter, where only the letters `A` to `Z` count
as equal to their small forms.  No other character has a case here. -/

/-- A text with its ASCII capitals made small. -/
def foldAscii (text : List Char) : List Char :=
  text.map Char.toLower

/-- Whether two texts agree up to the case of ASCII letters. -/
def sameCaseless (left right : String) : Bool :=
  foldAscii left.toList == foldAscii right.toList

theorem sameCaseless_eq_true_iff {left right : String} :
    sameCaseless left right = true ↔ foldAscii left.toList = foldAscii right.toList := by
  simp [sameCaseless]

theorem sameCaseless_self (text : String) : sameCaseless text text = true := by
  simp [sameCaseless]

/-! ## Quotes at the ends

Either quote character may stand at either end, and each end is treated by itself: the two need
not match, and only one character is taken from each side. -/

/-- Whether a character is a double or single quote. -/
def isQuote (c : Char) : Bool :=
  c == '"' || c == '\''

/-- A text without the quote character at its start, if it has one. -/
def dropLeadingQuote : List Char → List Char
  | c :: rest => if isQuote c then rest else c :: rest
  | [] => []

/-- A text without the quote character at its end, if it has one. -/
def dropTrailingQuote (text : List Char) : List Char :=
  if text.getLast?.any isQuote then text.dropLast else text

/-- A text with one quote character taken from each end. -/
def stripQuotes (text : String) : String :=
  String.ofList (dropTrailingQuote (dropLeadingQuote text.toList))

/-- Whether a text begins or ends with a quote character. -/
def hasOuterQuote (text : String) : Bool :=
  text.toList.head?.any isQuote || text.toList.getLast?.any isQuote

/-! ## Runs of decimal digits

Only the ten ASCII digits carry a value.  Where a format fixes the width, a run is padded with
zeros. -/

/-- The value of a run of ASCII digits, continuing a value already read. -/
def valueOfDigits (digits : List Char) (start : Nat) : Nat :=
  digits.foldl (fun value digit => 10 * value + (digit.toNat - '0'.toNat)) start

/-- The value of a text that consists of ASCII digits only, and of at least one. -/
def readDigits? (text : List Char) : Option Nat :=
  if !text.isEmpty && text.all Char.isDigit then some (valueOfDigits text 0) else none

/-- The decimal digits of a natural number, most significant first. -/
def digitsOf (n : Nat) : List Char :=
  Nat.toDigits 10 n

/-- The decimal digits of a natural number, filled up with zeros to a least width. -/
def paddedDigits (width n : Nat) : List Char :=
  List.replicate (width - (digitsOf n).length) '0' ++ digitsOf n

/-- An integer with its sign, filled up with zeros to a least width that counts the sign. -/
def paddedInteger (width : Nat) (n : Int) : List Char :=
  if n < 0 then '-' :: paddedDigits (width - 1) n.natAbs else paddedDigits width n.natAbs

end FilterQuery
