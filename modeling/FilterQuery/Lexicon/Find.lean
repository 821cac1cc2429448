import FilterQuery.Lexicon.Keyword
import FilterQuery.Schema.Basic
import FilterQuery.Text

/-!
# The pattern table of a schema

Keywords come first, then the labels and names of the fields, then the literals.  So a field whose
name is a keyword cannot be reached, and a field name wins over every literal.  Every schema has a
table: there is no bound on the length of a name, and so no failure to build a pattern from one.
-/

namespace FilterQuery

namespace Lexicon

open Character

/-! ## Shapes of literals

The shape of a literal says nothing yet about its value: digits of every script count, and
`2024-99-99` has the shape of a date.  All shapes but quoted text and free text end at a word
boundary, and where a shape has optional parts the longest reading that ends at one is taken. -/

/-- The first of some widths at which a text has a word boundary. -/
def firstBoundary? (text : List Char) (widths : List Nat) : Option Nat :=
  widths.find? (isBoundary text)

/-- The width of a text between two quotes of one kind, the quotes included. -/
def quotedWidth? : List Char → Option Nat
  | quote :: rest =>
      if isQuote quote then (rest.findIdx? (· == quote)).map (· + 2) else none
  | [] => none

/-- Whether a text starts with a layout, in which `0` stands for any digit. -/
def startsWithLayout : List Char → List Char → Bool
  | [], _ => true
  | mark :: layout, c :: text =>
      (if mark == '0' then isDigit c else c == mark) && startsWithLayout layout text
  | _ :: _, [] => false

/-- The width of a layout with an optional ending at the start of a text. -/
def layoutWidth? (layout ending : String) (text : List Char) : Option Nat :=
  firstBoundary? text <|
    [layout ++ ending, layout].filterMap fun whole =>
      if startsWithLayout whole.toList text then some whole.toList.length else none

/-- The width of digits and a unit letter, behind an optional space where one may stand. -/
def unitWidth? (mayBeSpaced : Bool) (unit : Char) (text : List Char) : Option Nat :=
  let space := if mayBeSpaced && text.head? == some ' ' then 1 else 0
  let digits := ((text.drop space).takeWhile isDigit).length
  if digits != 0 && ((text.drop (space + digits)).head?.any (sameLetter · unit)) then
    some (space + digits + 1)
  else none

/-- The positions at which an optional part may end, the longer reading first. -/
def unitEnds (mayBeSpaced : Bool) (unit : Char) (text : List Char) (start : Nat) : List Nat :=
  ((unitWidth? mayBeSpaced unit (text.drop start)).map (start + ·)).toList ++ [start]

/-- The width of a shorthand for a span of time.  It may be empty, as all of its parts are
optional. -/
def shorthandWidth? (text : List Char) : Option Nat :=
  firstBoundary? text <|
    (unitEnds false 'h' text 0).flatMap fun hours =>
      (unitEnds true 'm' text hours).flatMap fun minutes =>
        unitEnds true 's' text minutes

/-- The width of a number. -/
def numberWidth? (text : List Char) : Option Nat :=
  let sign := if text.head?.any fun c => c == '-' || c == '+' then 1 else 0
  let whole := ((text.drop sign).takeWhile isDigit).length
  let fraction :=
    match text.drop (sign + whole) with
    | '.' :: rest => (rest.takeWhile isDigit).length
    | _ => 0
  if whole = 0 then none
  else
    firstBoundary? text <|
      (if fraction = 0 then [] else [sign + whole + 1 + fraction]) ++ [sign + whole]

/-- The width of a truth value. -/
def booleanWidth? (text : List Char) : Option Nat :=
  firstBoundary? text <|
    ["true".toList, "false".toList].filterMap fun letters =>
      (dropLetters? letters text).map (widthBefore text)

/-- Whether a character may stand in free text. -/
def isFree (c : Char) : Bool :=
  !isBlank c && !"(),/\"'=<>!~*[]&|".toList.contains c

/-- The width of free text, of which there has to be some. -/
def freeWidth? (text : List Char) : Option Nat :=
  let width := (text.takeWhile isFree).length
  if width = 0 then none else some width

/-- The literals, in the order in which they are tried. -/
def literalPatterns : List Pattern :=
  [⟨.value .string, quotedWidth?⟩,
    ⟨.value .dateTime, layoutWidth? "0000-00-00 00:00" ":00"⟩,
    ⟨.value .date, layoutWidth? "0000-00-00" ""⟩,
    ⟨.value .time, layoutWidth? "00:00" ":00"⟩,
    ⟨.value .time, shorthandWidth?⟩,
    ⟨.value .number, numberWidth?⟩,
    ⟨.value .boolean, booleanWidth?⟩,
    ⟨.literal, freeWidth?⟩]

/-! ## Names of fields and the table -/

/-- Whether a name has to end at a word boundary: those that end in a letter, a numeral or an
underscore. -/
def endsInWord (name : List Char) : Bool :=
  name.getLast?.any fun c => isAlphanumeric c || c == '_'

/-- The width of a field name at the start of a text. -/
def nameWidth? (name : List Char) (text : List Char) : Option Nat :=
  ((dropLetters? name text).map (widthBefore text)).filter fun width =>
    !endsInWord name || isBoundary text width

/-- The pattern of a name or label. -/
def namePattern (name : String) : Pattern :=
  ⟨.field, nameWidth? name.toList⟩

/-- The patterns of a field: its label, unless that is empty, and its name. -/
def fieldPatterns (field : Field) : List Pattern :=
  (if field.label = "" then [] else [namePattern field.label]) ++ [namePattern field.name]

end Lexicon

open Lexicon

namespace Schema

/-- The pattern table of a schema. -/
def patterns (schema : Schema) : List Pattern :=
  keywordPatterns ++ schema.fields.flatMap fieldPatterns ++ literalPatterns

/-- The first admissible match at the start of a text, with its kind and width. -/
def match? (schema : Schema) (text : List Char) : Option (TokenKind × Nat) :=
  firstMatch? schema.patterns text

/-- The first admissible match at the start of a text, with the part that it covers. -/
def find? (schema : Schema) (text : String) : Option (TokenKind × String) :=
  (schema.match? text.toList).map fun (kind, width) =>
    (kind, String.ofList (text.toList.take width))

/-- The kind of the first admissible match, if it covers all of a text. -/
def findExact? (schema : Schema) (text : String) : Option TokenKind :=
  (schema.match? text.toList).bind fun (kind, width) =>
    if width = text.toList.length then some kind else none

end Schema

end FilterQuery
