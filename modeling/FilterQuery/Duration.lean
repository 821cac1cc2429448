import FilterQuery.Character.Casing
import FilterQuery.Text

/-!
# Spans of time in seconds

A span is written as a clock, `HH:MM` or `HH:MM:SS`, or as a shorthand such as `1h 15m` whose
parts stand in the order hours, minutes, seconds and may each be missing.  Digit runs are
unbounded, but a span has to stay below `2 ^ 63` seconds.
-/

namespace FilterQuery.Duration

/-- The number of seconds that hours, minutes and seconds make up. -/
def total (hours minutes seconds : Nat) : Nat :=
  3600 * hours + 60 * minutes + seconds

/-- The seconds shown by a clock, whose minutes and seconds stay below sixty. -/
def ofClockParts? (hours minutes seconds : Nat) : Option Nat :=
  if minutes < 60 ∧ seconds < 60 then some (total hours minutes seconds) else none

/-- Read a clock. -/
def ofClock? : List Char → Option Nat
  | [h₁, h₂, ':', m₁, m₂] => do
      ofClockParts? (← readDigits? [h₁, h₂]) (← readDigits? [m₁, m₂]) 0
  | [h₁, h₂, ':', m₁, m₂, ':', s₁, s₂] => do
      ofClockParts? (← readDigits? [h₁, h₂]) (← readDigits? [m₁, m₂]) (← readDigits? [s₁, s₂])
  | _ => none

/-- Drop the one space that may stand before a part of a shorthand. -/
def dropSpace : List Char → List Char
  | ' ' :: rest => rest
  | text => text

/-- Read digits and a unit letter off a text. -/
def readPart? (unit : Char) (text : List Char) : Option (Nat × List Char) :=
  match text.dropWhile Char.isDigit with
  | letter :: rest =>
      if Character.sameLetter letter unit then
        (readDigits? (text.takeWhile Char.isDigit)).map fun value => (value, rest)
      else none
  | [] => none

/-- Read the three parts of a shorthand, a missing one counting nothing, and what follows. -/
def readParts (text : List Char) : (Nat × Nat × Nat) × List Char :=
  let (hours, text) := (readPart? 'h' text).getD (0, text)
  let (minutes, text) := (readPart? 'm' (dropSpace text)).getD (0, text)
  let (seconds, text) := (readPart? 's' (dropSpace text)).getD (0, text)
  ((hours, minutes, seconds), text)

/-- A natural number, unless it leaves the range of spans. -/
def inRange? (n : Nat) : Option Nat :=
  if n < Nat.pow 2 63 then some n else none

/-- The seconds shown by the parts of a shorthand.  Each part, each product and each sum has to stay
within the range of spans. -/
def ofShorthandParts? (hours minutes seconds : Nat) : Option Nat := do
  let hours ← inRange? (3600 * (← inRange? hours))
  let minutes ← inRange? (60 * (← inRange? minutes))
  let sum ← inRange? (hours + minutes)
  inRange? (sum + (← inRange? seconds))

/-- Read a shorthand, which is not empty. -/
def ofShorthand? (text : List Char) : Option Nat :=
  match text, readParts text with
  | _ :: _, ((hours, minutes, seconds), []) => ofShorthandParts? hours minutes seconds
  | _, _ => none

/-- Read a span of time in either form. -/
def ofChars? (text : List Char) : Option Nat :=
  (ofClock? text).or (ofShorthand? text)

/-- The text of a span: a clock below a hundred hours, a shorthand from there on.  The parts of a
negative span all carry its sign. -/
def toChars (span : Int) : List Char :=
  let hours := span.tdiv 3600
  let minutes := (span.tmod 3600).tdiv 60
  let seconds := span.tmod 60
  if hours < 100 then
    paddedInteger 2 hours ++ ':' :: paddedInteger 2 minutes ++ ':' :: paddedInteger 2 seconds
  else
    paddedInteger 0 hours ++ 'h' :: ' ' :: paddedInteger 0 minutes ++ 'm' :: ' ' ::
      paddedInteger 0 seconds ++ ['s']

end FilterQuery.Duration
