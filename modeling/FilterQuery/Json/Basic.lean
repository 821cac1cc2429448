import FilterQuery.Binary64

/-!
# JSON values and their numbers

A JSON number is an integer that fits into 64 bits or a finite binary number.  An object is a list
of members in the order in which they are written; a reader that keeps its members sorted inserts
them one by one, a later member taking the place of an earlier one of the same name.
-/

namespace FilterQuery

/-! ## Numbers

A number text is first split into its runs of digits.  Its significand is then collected in one
64-bit word, of which digits that no longer fit are dropped, and scaled by a power of ten in one
rounding step.  Numbers are written with the fewest digits that read back, positionally in the
middle range and with an exponent outside of it. -/

/-- A number of a JSON text. -/
inductive JsonNumber
  | integer (value : Int)
  | float (negative : Bool) (magnitude : Magnitude)
  deriving DecidableEq

/-- The runs of digits of a number text.  An exponent has a sign. -/
structure NumberParts where
  negative : Bool
  whole : List Char
  fraction : Option (List Char)
  exponent : Option (Bool × List Char)

namespace NumberParts

/-- Append digits to a 64-bit word while they fit, and return those that did not. -/
def appendDigits (word : Nat) : List Char → Nat × List Char
  | [] => (word, [])
  | digit :: rest =>
      let next := valueOfDigits [digit] word
      if next < Nat.pow 2 64 then appendDigits next rest else (word, digit :: rest)

/-- The exponent that a number text states, zero when it states none. -/
def statedExponent (parts : NumberParts) : Int :=
  match parts.exponent with
  | none => 0
  | some (negative, digits) =>
      let size : Int := valueOfDigits digits 0
      if negative then -size else size

/-- The significand of a number text as a 64-bit word, with the power of ten that goes with it. -/
def significand (parts : NumberParts) : Decimal :=
  let fraction := parts.fraction.getD []
  let (whole, dropped) := appendDigits 0 parts.whole
  let (word, unused) := appendDigits whole fraction
  ⟨word, parts.statedExponent + dropped.length - ((fraction.length - unused.length : Nat) : Int)⟩

/-- The power of ten up to which a scaling is done in one step. -/
def maxScale : Nat := 308

/-- A magnitude scaled by a power of ten, or nothing beyond the largest one.  Scaling far down goes
by steps of the largest power. -/
def scale? (x : Magnitude) (exponent : Int) : Option Magnitude :=
  if exponent.natAbs ≤ maxScale then do
    let power ← Decimal.nearest? ⟨1, exponent.natAbs⟩
    if 0 ≤ exponent then x.mul? power else x.div? power
  else if x.rank = 0 then some x
  else if 0 ≤ exponent then none
  else do
    let power ← Decimal.nearest? ⟨1, maxScale⟩
    scale? (← x.div? power) (exponent + maxScale)
termination_by exponent.natAbs
decreasing_by
  simp only [maxScale] at *
  omega

/-- The floating point number that a number text means, or nothing when it is too large. -/
def toFloat? (parts : NumberParts) : Option JsonNumber := do
  let significand := parts.significand
  let word ← Decimal.nearest? ⟨significand.coefficient, 0⟩
  return .float parts.negative (← scale? word significand.exponent)

/-- The number that a number text means, or nothing when it is too large.  Without a fraction and
an exponent it is an integer if it fits; the negative zero is not an integer. -/
def toNumber? (parts : NumberParts) : Option JsonNumber :=
  let value := valueOfDigits parts.whole 0
  if parts.fraction.isSome || parts.exponent.isSome then parts.toFloat?
  else if parts.negative then
    if value = 0 ∨ Nat.pow 2 63 < value then parts.toFloat? else some (.integer (-value))
  else if value < Nat.pow 2 64 then some (.integer value)
  else parts.toFloat?

end NumberParts

namespace Decimal

/-- The place of the first digit of a decimal fraction: the exponent it has when a single digit
stands before the point. -/
def leadingPlace (d : Decimal) : Int :=
  d.exponent + (digitsOf d.coefficient).length - 1

/-- A decimal fraction written positionally with at least one digit behind the point. -/
def pointed (d : Decimal) : List Char :=
  if 0 ≤ d.exponent then d.positional ++ ['.', '0'] else d.positional

/-- A decimal fraction written as one digit, the others behind a point, and a signed exponent. -/
def scientific (d : Decimal) : List Char :=
  let sign := if d.leadingPlace < 0 then '-' else '+'
  let exponent := 'e' :: sign :: digitsOf d.leadingPlace.natAbs
  match digitsOf d.coefficient with
  | first :: second :: rest => first :: '.' :: second :: rest ++ exponent
  | digits => digits ++ exponent

end Decimal

namespace JsonNumber

/-- The text of a finite magnitude: positional from `1e-5` up to below `1e16`. -/
def magnitudeChars (x : Magnitude) : List Char :=
  if x.rank = 0 then ['0', '.', '0']
  else
    let d := x.shortest .toEven
    if -5 ≤ d.leadingPlace ∧ d.leadingPlace < 16 then d.pointed else d.scientific

/-- The text of a JSON number. -/
def toChars : JsonNumber → List Char
  | integer value => paddedInteger 0 value
  | float negative magnitude => Binary64.signText negative ++ magnitudeChars magnitude

end JsonNumber

/-! ## Values -/

/-- A JSON value. -/
inductive Json
  | null
  | boolean (truth : Bool)
  | number (amount : JsonNumber)
  | string (content : String)
  | array (items : List Json)
  | object (members : List (String × Json))

namespace Json

/-- Insert a member into a list of members sorted by name, in place of one of the same name. -/
def insertMember (name : String) (value : Json) : List (String × Json) → List (String × Json)
  | [] => [(name, value)]
  | (other, kept) :: rest =>
      if name < other then (name, value) :: (other, kept) :: rest
      else if name = other then (name, value) :: rest
      else (other, kept) :: insertMember name value rest

end Json

end FilterQuery
