import FilterQuery.Expression.Basic
import FilterQuery.Json.Printer
import FilterQuery.Lexicon.Keyword
import FilterQuery.Text

/-!
# Expressions as array queries

An expression is written as nested arrays: a condition as field, operator and value, a connective
as its name and the array of its children.  A text that would be taken for a keyword, or that would
lose a quote at one of its ends, is wrapped in double quotes; reading strips them again.
-/

namespace FilterQuery

/-- Whether a text has to be wrapped in quotes to be read back as it is. -/
def needsQuotes (content : String) : Bool :=
  Lexicon.isKeyword content || hasOuterQuote content

namespace Value

mutual

/-- A value as it is written in an array query. -/
def toJson : Value → Json
  | text content => .string (if needsQuotes content then "\"" ++ content ++ "\"" else content)
  | number (.finite negative magnitude) => .number (.float negative magnitude)
  | number _ => .null
  | boolean truth => .boolean truth
  | list values => .array (toJsonEach values)
  | value => .string value.display

/-- The values of a list as they are written in an array query. -/
def toJsonEach : List Value → List Json
  | [] => []
  | value :: rest => value.toJson :: toJsonEach rest

end

end Value

/-- A condition as an array query. -/
def Condition.toJson (test : Condition) : Json :=
  .array [.string test.field, .string test.operator.name, test.value.toJson]

namespace Expression

mutual

/-- An expression as an array query. -/
def toJson : Expression → Json
  | condition test => test.toJson
  | logic connective children =>
      .array [.string connective.name, .array (toJsonEach children)]

/-- A list of expressions as array queries. -/
def toJsonEach : List Expression → List Json
  | [] => []
  | child :: rest => child.toJson :: toJsonEach rest

end

end Expression

end FilterQuery
