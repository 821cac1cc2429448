import FilterQuery.Character.Casing
import FilterQuery.Character.Property
import FilterQuery.Token.Basic

/-!
# Patterns and keywords

A pattern says how many characters at the start of a text it matches, and which kind a match
suggests.  Keywords are patterns that every schema shares and that no name or literal can take the
place of: punctuation, connectives and operators.
-/

namespace FilterQuery.Lexicon

/-! ## Patterns at the start of a text

A table of patterns is tried in order, and the first admissible match counts whatever its length:
an empty match, or one that begins with a blank, is passed over. -/

/-- A kind of token together with the shape that suggests it. -/
structure Pattern where
  kind : TokenKind
  /-- The number of characters matched at the start of a text. -/
  width? : List Char → Option Nat

/-- The width of the match of a pattern, unless it is empty or begins with a blank. -/
def Pattern.admitted? (pattern : Pattern) (text : List Char) : Option Nat :=
  (pattern.width? text).filter fun width => width != 0 && !text.head?.any Character.isBlank

/-- The first admissible match of a table, with its kind and width. -/
def firstMatch? (table : List Pattern) (text : List Char) : Option (TokenKind × Nat) :=
  table.findSome? fun pattern => (pattern.admitted? text).map fun width => (pattern.kind, width)

/-- What follows given letters at the start of a text, letter case set aside. -/
def dropLetters? : List Char → List Char → Option (List Char)
  | [], text => some text
  | letter :: letters, c :: text =>
      if Character.sameLetter c letter then dropLetters? letters text else none
  | _ :: _, [] => none

/-- How much shorter one text is than another of which it is the end. -/
def widthBefore (text rest : List Char) : Nat :=
  text.length - rest.length

/-! ## Keywords

A keyword is written as a symbol or as words.  Words are matched in any letter case, blanks between
them are optional, and the last word must not run on into another word character.  Some words take
an optional `s` at their end.  Keywords are tried in the order of the table, longer spellings
before shorter ones where one begins with the other. -/

/-- A word of a keyword. -/
structure Word where
  letters : List Char
  /-- Whether the word may have an `s` at its end. -/
  mayEndInS : Bool

/-- A word without an optional ending. -/
def word (letters : String) : Word :=
  ⟨letters.toList, false⟩

/-- A word with an optional `s` at its end. -/
def verb (letters : String) : Word :=
  ⟨letters.toList, true⟩

/-- Drop an `s` from the start of a text, if it has one. -/
def dropS : List Char → List Char
  | c :: rest => if Character.sameLetter c 's' then rest else c :: rest
  | [] => []

/-- What follows a word at the start of a text. -/
def Word.rest? (word : Word) (text : List Char) : Option (List Char) :=
  (dropLetters? word.letters text).map fun rest => if word.mayEndInS then dropS rest else rest

/-- What follows words at the start of a text, each after optional blanks. -/
def wordsRest? : List Word → List Char → Option (List Char)
  | [], text => some text
  | word :: words, text =>
      (word.rest? (text.dropWhile Character.isBlank)).bind (wordsRest? words)

/-- The ways of writing a keyword: a symbol, words, or both.  An empty list of words stands for
none. -/
structure Keyword where
  kind : TokenKind
  symbol : String
  words : List Word

namespace Keyword

/-- What follows the symbol of a keyword. -/
def afterSymbol? (keyword : Keyword) (text : List Char) : Option (List Char) :=
  if keyword.symbol = "" then none else keyword.symbol.toList.isPrefixOf? text

/-- What follows the words of a keyword, which must not run on. -/
def afterWords? (keyword : Keyword) (text : List Char) : Option (List Char) :=
  match keyword.words with
  | [] => none
  | first :: others =>
      ((first.rest? text).bind (wordsRest? others)).filter fun rest =>
        !Character.isWordAt rest.head?

/-- What follows a keyword at the start of a text. -/
def rest? (keyword : Keyword) (text : List Char) : Option (List Char) :=
  (keyword.afterSymbol? text).or (keyword.afterWords? text)

/-- The pattern of a keyword. -/
def pattern (keyword : Keyword) : Pattern where
  kind := keyword.kind
  width? text := (keyword.rest? text).map (widthBefore text)

end Keyword

/-- The keywords, in the order in which they are tried. -/
def keywords : List Keyword :=
  [⟨.openGroup, "(", []⟩,
    ⟨.closeGroup, ")", []⟩,
    ⟨.comma, ",", []⟩,
    ⟨.slash, "/", []⟩,
    ⟨.and, "&&", [word "and"]⟩,
    ⟨.or, "||", [word "or"]⟩,
    ⟨.comparer .equal, "=", [word "equal"]⟩,
    ⟨.comparer .notEqual, "!=", [word "not", word "equal"]⟩,
    ⟨.comparer .greaterThanOrEqual, ">=",
      [word "greater", word "than", word "or", word "equal"]⟩,
    ⟨.comparer .greaterThan, ">", [word "greater", word "than"]⟩,
    ⟨.comparer .lessThanOrEqual, "<=", [word "less", word "than", word "or", word "equal"]⟩,
    ⟨.comparer .lessThan, "<", [word "less", word "than"]⟩,
    ⟨.presence .blank, "[]", [word "blank"]⟩,
    ⟨.presence .notBlank, "![]", [word "not", word "blank"]⟩,
    ⟨.comparer .startWith, "~*", [verb "start", word "with"]⟩,
    ⟨.comparer .notStartWith, "!~*", [word "not", verb "start", word "with"]⟩,
    ⟨.comparer .endWith, "*~", [verb "end", word "with"]⟩,
    ⟨.comparer .notEndWith, "!*~", [word "not", verb "end", word "with"]⟩,
    ⟨.comparer .contain, "~", [verb "contain"]⟩,
    ⟨.comparer .notContain, "!~", [word "not", verb "contain"]⟩,
    ⟨.comparer .anyOf, "", [word "in"]⟩,
    ⟨.comparer .noneOf, "", [word "not", word "in"]⟩]

/-- The patterns of the keywords. -/
def keywordPatterns : List Pattern :=
  keywords.map Keyword.pattern

/-- Whether the first keyword at the start of a text is all of it. -/
def isKeyword (text : String) : Bool :=
  (keywordPatterns.findSome? (·.width? text.toList)) == some text.toList.length

end FilterQuery.Lexicon
