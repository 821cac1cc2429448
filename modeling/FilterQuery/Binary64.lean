import FilterQuery.Text

/-!
# Binary floating point numbers of 64 bits

A finite magnitude is known by its rank among all finite magnitudes, counted from zero: ranks
below `2 ^ 52` are the multiples of the least magnitude, and from there on every `2 ^ 52` ranks
share one power of two.  Every rank below the limit is a magnitude and every magnitude has one
rank, so equality of numbers is equality of data and no normal form has to be kept.
-/

namespace FilterQuery

/-- A finite magnitude of the format, given by its rank among them. -/
structure Magnitude where
  rank : Nat
  rank_lt : rank < 2047 * Nat.pow 2 52
  deriving DecidableEq

namespace Magnitude

/-- The magnitude zero. -/
def zero : Magnitude := ⟨0, by decide⟩

/-- The integer factor of a magnitude. -/
def significand (x : Magnitude) : Nat :=
  if x.rank < Nat.pow 2 52 then x.rank else Nat.pow 2 52 + x.rank % Nat.pow 2 52

/-- The power of two that multiplies the integer factor of a magnitude. -/
def exponent (x : Magnitude) : Int :=
  if x.rank < Nat.pow 2 52 then -1074 else (x.rank / Nat.pow 2 52 : Nat) - 1075

/-- The numerator of a magnitude written as a fraction. -/
def numerator (x : Magnitude) : Nat :=
  x.significand * Nat.pow 2 x.exponent.toNat

/-- The denominator of a magnitude written as a fraction, a power of two. -/
def denominator (x : Magnitude) : Nat :=
  Nat.pow 2 (-x.exponent).toNat

theorem denominator_pos (x : Magnitude) : 0 < x.denominator :=
  Nat.two_pow_pos _

end Magnitude

/-- A number of the format: not a number, an infinity, or a signed finite magnitude.  Both zeros
are numbers of their own. -/
inductive Binary64
  | nan
  | infinite (negative : Bool)
  | finite (negative : Bool) (magnitude : Magnitude)
  deriving DecidableEq

namespace Binary64

/-- Numerical equality: the two zeros agree, and what is not a number agrees with nothing. -/
def numericallyEqual : Binary64 → Binary64 → Bool
  | infinite left, infinite right => left == right
  | finite negative left, finite negative' right =>
      left == right && (negative == negative' || left.rank == 0)
  | _, _ => false

end Binary64

/-! ## Rounding to the nearest magnitude

A quotient of natural numbers is rounded to the nearest magnitude, a tie going to the even rank.
The power of two is chosen first, the quotient in that unit is rounded next, and a carry out of
the unit lands on the right rank by itself.  A quotient beyond the largest magnitude has no
rounding here; what becomes of it is decided by the caller. -/

/-- The integer nearest to a quotient, a tie going to the even one. -/
def nearestEven (numerator denominator : Nat) : Nat :=
  let quotient := numerator / denominator
  let rest := numerator % denominator
  if 2 * rest < denominator then quotient
  else if denominator < 2 * rest then quotient + 1
  else quotient + quotient % 2

/-- The quotient `numerator / denominator` divided by `2 ^ shift`, rounded to an integer. -/
def nearestInUnit (numerator denominator : Nat) (shift : Int) : Nat :=
  nearestEven (numerator * Nat.pow 2 (-shift).toNat) (denominator * Nat.pow 2 shift.toNat)

/-- Whether `2 ^ power` is at most the quotient of two natural numbers. -/
def powerFits (numerator denominator : Nat) (power : Int) : Bool :=
  denominator * Nat.pow 2 power.toNat ≤ numerator * Nat.pow 2 (-power).toNat

/-- The largest power of two that is at most the quotient of two positive numbers. -/
def binaryOrder (numerator denominator : Nat) : Int :=
  let guess : Int := (numerator.log2 : Int) - denominator.log2
  if powerFits numerator denominator guess then guess else guess - 1

namespace Magnitude

/-- The magnitude nearest to a quotient, or nothing beyond the largest one. -/
def ofRatio? (numerator denominator : Nat) : Option Magnitude :=
  if numerator = 0 then some zero
  else
    let unit := max (binaryOrder numerator denominator - 52) (-1074)
    let rank := (unit + 1074).toNat * Nat.pow 2 52 + nearestInUnit numerator denominator unit
    if within : rank < 2047 * Nat.pow 2 52 then some ⟨rank, within⟩ else none

/-- The rounded product of two magnitudes. -/
def mul? (x y : Magnitude) : Option Magnitude :=
  ofRatio? (x.numerator * y.numerator) (x.denominator * y.denominator)

/-- The rounded quotient of two magnitudes, of which the second is not zero. -/
def div? (x y : Magnitude) : Option Magnitude :=
  ofRatio? (x.numerator * y.denominator) (x.denominator * y.numerator)

end Magnitude

/-- A decimal fraction `coefficient * 10 ^ exponent`. -/
structure Decimal where
  coefficient : Nat
  exponent : Int
  deriving DecidableEq

namespace Decimal

/-- The magnitude nearest to a decimal fraction, or nothing beyond the largest one.  Exponents
that leave no doubt are decided without writing the power of ten out. -/
def nearest? (d : Decimal) : Option Magnitude :=
  if d.coefficient = 0 then some Magnitude.zero
  else if 400 < d.exponent then none
  else if d.exponent + d.coefficient.log2 < -400 then some Magnitude.zero
  else
    Magnitude.ofRatio? (d.coefficient * Nat.pow 10 d.exponent.toNat)
      (Nat.pow 10 (-d.exponent).toNat)

end Decimal

/-! ## The shortest decimal that reads back

Among the decimal fractions that round to a magnitude, the one with the fewest digits is found by
walking through the decimal grids from coarse to fine.  On each grid only the two neighbours of
the magnitude are tried, since any grid point that reads back has one of them in between.  Of two
neighbours that both read back the nearer is taken; a tie is settled by the caller's rule. -/

/-- The neighbour taken when a magnitude lies halfway between two decimals. -/
inductive Tie
  | up
  | toEven
  deriving DecidableEq

namespace Magnitude

/-- Whether a decimal fraction rounds to a magnitude. -/
def isReadBy (x : Magnitude) (d : Decimal) : Bool :=
  d.nearest? == some x

/-- A magnitude written out in full as a decimal fraction. -/
def toDecimal (x : Magnitude) : Decimal :=
  if 0 ≤ x.exponent then ⟨x.numerator, 0⟩
  else ⟨x.significand * Nat.pow 5 (-x.exponent).toNat, x.exponent⟩

/-- The neighbour that is nearer to a magnitude, of the two on the grid of spacing `10 ^ place`
around it. -/
def nearerNeighbour (tie : Tie) (x : Magnitude) (place : Int) (lower : Nat) : Nat :=
  let scaled := 2 * x.numerator * Nat.pow 10 (-place).toNat
  let middle := (2 * lower + 1) * (x.denominator * Nat.pow 10 place.toNat)
  if scaled < middle then lower
  else if middle < scaled then lower + 1
  else
    match tie with
    | .up => lower + 1
    | .toEven => lower + lower % 2

/-- The decimal on the grid of spacing `10 ^ place` that reads back as a magnitude, if the grid
has one. -/
def onGrid? (tie : Tie) (x : Magnitude) (place : Int) : Option Decimal :=
  let lower := x.numerator * Nat.pow 10 (-place).toNat / (x.denominator * Nat.pow 10 place.toNat)
  match x.isReadBy ⟨lower, place⟩, x.isReadBy ⟨lower + 1, place⟩ with
  | true, false => some ⟨lower, place⟩
  | false, true => some ⟨lower + 1, place⟩
  | true, true => some ⟨x.nearerNeighbour tie place lower, place⟩
  | false, false => none

/-- A place whose power of ten exceeds a magnitude at least twice, and by little more. -/
def coarsestPlace (x : Magnitude) : Int :=
  let bits := binaryOrder x.numerator x.denominator + 2
  max (bits * 31 / 100) (bits * 30 / 100) + 1

/-- The decimal with the fewest digits that reads back as a magnitude. -/
def shortest (tie : Tie) (x : Magnitude) : Decimal :=
  if x.rank = 0 then ⟨0, 0⟩
  else
    ((List.range 32).findSome? fun (step : Nat) => x.onGrid? tie (x.coarsestPlace - step)).getD
      x.toDecimal

end Magnitude

/-! ## Decimal text

A number is written with the fewest digits that read back, always positionally and without a
point when there is nothing behind it.  It is read from an optional sign, digits and an optional
fraction, correctly rounded. -/

namespace Decimal

/-- A decimal fraction written positionally, with a point only before a fraction. -/
def positional (d : Decimal) : List Char :=
  let digits := digitsOf d.coefficient
  if 0 ≤ d.exponent then digits ++ List.replicate d.exponent.toNat '0'
  else
    let places := (-d.exponent).toNat
    let padded := List.replicate (places + 1 - digits.length) '0' ++ digits
    padded.take (padded.length - places) ++ '.' :: padded.drop (padded.length - places)

end Decimal

namespace Binary64

/-- The sign of a number as it is written. -/
def signText (negative : Bool) : List Char :=
  if negative then ['-'] else []

/-- The text of a number in the query language. -/
def toChars : Binary64 → List Char
  | nan => ['N', 'a', 'N']
  | infinite negative => signText negative ++ ['i', 'n', 'f']
  | finite negative magnitude =>
      signText negative ++
        if magnitude.rank = 0 then ['0'] else (magnitude.shortest .up).positional

/-- The number nearest to a signed decimal fraction; beyond the largest one it is infinite. -/
def ofDecimal (negative : Bool) (d : Decimal) : Binary64 :=
  match d.nearest? with
  | some magnitude => finite negative magnitude
  | none => infinite negative

/-- Split a leading sign off a text. -/
def splitSign : List Char → Bool × List Char
  | '-' :: rest => (true, rest)
  | '+' :: rest => (false, rest)
  | text => (false, text)

/-- Read a number that is written without a power of ten: an optional sign, digits, and optionally
a point with more digits. -/
def ofPlainChars? (text : List Char) : Option Binary64 :=
  let (negative, rest) := splitSign text
  let whole := rest.takeWhile Char.isDigit
  match rest.dropWhile Char.isDigit with
  | [] => (readDigits? whole).map fun value => ofDecimal negative ⟨value, 0⟩
  | '.' :: fraction => do
      let value ← readDigits? whole
      let _ ← readDigits? fraction
      some (ofDecimal negative ⟨valueOfDigits fraction value, -fraction.length⟩)
  | _ => none

end Binary64

end FilterQuery
