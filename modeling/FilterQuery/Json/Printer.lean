import FilterQuery.Json.Basic

/-!
# Writing JSON

A JSON value is written without blanks, or spread over lines with two blanks of indentation for
every level.  Only quotes, backslashes and control characters are escaped.
-/

namespace FilterQuery.Json

/-- A hexadecimal digit below sixteen. -/
def hexDigit (n : Nat) : Char :=
  if n < 10 then Char.ofNat ('0'.toNat + n) else Char.ofNat ('a'.toNat + (n - 10))

/-- A character as it is written inside a string. -/
def escapeChar (c : Char) : List Char :=
  if c = '"' then ['\\', '"']
  else if c = '\\' then ['\\', '\\']
  else if c.toNat < 0x20 then
    match c.toNat with
    | 0x08 => ['\\', 'b']
    | 0x09 => ['\\', 't']
    | 0x0a => ['\\', 'n']
    | 0x0c => ['\\', 'f']
    | 0x0d => ['\\', 'r']
    | code => ['\\', 'u', '0', '0', hexDigit (code / 16), hexDigit (code % 16)]
  else [c]

/-- A text written as a string. -/
def quote (content : String) : List Char :=
  '"' :: content.toList.flatMap escapeChar ++ ['"']

mutual

/-- A value written without blanks. -/
def compactChars : Json → List Char
  | null => "null".toList
  | boolean truth => (if truth then "true" else "false").toList
  | number amount => amount.toChars
  | string content => quote content
  | array items => '[' :: compactItems items
  | object members => '\x7b' :: compactMembers members

/-- The items of an array with the closing bracket. -/
def compactItems : List Json → List Char
  | [] => [']']
  | [item] => compactChars item ++ [']']
  | item :: rest => compactChars item ++ ',' :: compactItems rest

/-- The members of an object with the closing brace. -/
def compactMembers : List (String × Json) → List Char
  | [] => ['\x7d']
  | [(name, value)] => quote name ++ ':' :: compactChars value ++ ['\x7d']
  | (name, value) :: rest => quote name ++ ':' :: compactChars value ++ ',' :: compactMembers rest

end

/-- The start of a line at a level of indentation. -/
def newLine (level : Nat) : List Char :=
  '\n' :: List.replicate (2 * level) ' '

mutual

/-- A value spread over lines, itself standing at a level of indentation. -/
def prettyChars (level : Nat) : Json → List Char
  | null => "null".toList
  | boolean truth => (if truth then "true" else "false").toList
  | number amount => amount.toChars
  | string content => quote content
  | array [] => ['[', ']']
  | array items => '[' :: prettyItems level items
  | object [] => ['\x7b', '\x7d']
  | object members => '\x7b' :: prettyMembers level members

/-- The items of an array, one to a line, with the closing bracket. -/
def prettyItems (level : Nat) : List Json → List Char
  | [] => newLine level ++ [']']
  | [item] => newLine (level + 1) ++ prettyChars (level + 1) item ++ newLine level ++ [']']
  | item :: rest =>
      newLine (level + 1) ++ prettyChars (level + 1) item ++ ',' :: prettyItems level rest

/-- The members of an object, one to a line, with the closing brace. -/
def prettyMembers (level : Nat) : List (String × Json) → List Char
  | [] => newLine level ++ ['\x7d']
  | [(name, value)] =>
      newLine (level + 1) ++ quote name ++ ':' :: ' ' :: prettyChars (level + 1) value ++
        newLine level ++ ['\x7d']
  | (name, value) :: rest =>
      newLine (level + 1) ++ quote name ++ ':' :: ' ' :: prettyChars (level + 1) value ++
        ',' :: prettyMembers level rest

end

/-- The text of a value without blanks. -/
def compact (value : Json) : String :=
  String.ofList value.compactChars

/-- The text of a value spread over lines. -/
def pretty (value : Json) : String :=
  String.ofList (value.prettyChars 0)

end FilterQuery.Json
