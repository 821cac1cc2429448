import FilterQuery.Json.Reader

/-!
# What can be wrong with a query

A query in the array grammar may already fail in its structure.  Apart from that, compiling and
validating a query fail in ways of their own.  The wording of each error is kept in one place.
-/

namespace FilterQuery

/-- What can be wrong with the structure of a query in the array grammar. -/
inductive StructureError
  /-- The query is not sound JSON. -/
  | json (error : Json.ReadError Empty)
  | notAnArray
  | invalidArity (found : Nat)
  | expectedString
  | expectedScalar
  | emptyList

/-- Why a query does not compile. -/
inductive ParseError
  | malformed (cause : StructureError)
  /-- A text that is not acceptable where it stands. -/
  | invalidToken (text : String)
  /-- An acceptable token that cannot go on from the ones before. -/
  | unexpectedToken (text : String)
  | unknownField (name : String)
  | unknownOperator (name : String)
  | unknownLogic (name : String)
  | invalidValue (text : String)
  | unclosedGroup
  | unexpectedCloseGroup
  | incompleteExpression

/-- Why a query is not valid. -/
inductive ValidationError
  | malformed (cause : StructureError)
  | invalidToken (text : String)
  | mismatchedGroups (opened closed : Nat)
  /-- The query ends on a token behind which something is missing. -/
  | incompleteExpression (text : String)

/-- A text in single quotes. -/
def inQuotes (text : String) : String :=
  "'" ++ text ++ "'"

/-- The wording of a fault in a JSON text.  A text that is no JSON is told only from one that breaks
off: the two wordings are those of this library, and neither says by line and column where the
fault lies nor what was expected there. -/
def jsonMessage {δ : Type} (describe : δ → String) : Json.ReadError δ → String
  | .malformed => "malformed text"
  | .ended => "unexpected end of text"
  | .content cause => describe cause

/-- The message of a fault in the structure of a query. -/
def StructureError.message : StructureError → String
  | json error => "invalid JSON: " ++ jsonMessage Empty.elim error
  | notAnArray => "expected an array"
  | invalidArity found => "expected an array of 2 or 3 elements, found " ++ toString found
  | expectedString => "expected a string"
  | expectedScalar => "expected a string, number, boolean or null value"
  | emptyList => "empty list"

/-- The message of an error in compiling a query. -/
def ParseError.message : ParseError → String
  | malformed cause => cause.message
  | invalidToken text => "invalid token " ++ inQuotes text
  | unexpectedToken text => "unexpected token " ++ inQuotes text
  | unknownField name => "unknown field " ++ inQuotes name
  | unknownOperator name => "unknown operator " ++ inQuotes name
  | unknownLogic name => "unknown logic " ++ inQuotes name
  | invalidValue text => "invalid value " ++ inQuotes text
  | unclosedGroup => "unclosed group"
  | unexpectedCloseGroup => "unexpected ')'"
  | incompleteExpression => "incomplete expression"

/-- The message of an error in validating a query. -/
def ValidationError.message : ValidationError → String
  | malformed cause => cause.message
  | invalidToken text => "invalid token " ++ inQuotes text
  | mismatchedGroups opened closed =>
      "mismatched groups: " ++ toString opened ++ " '(' and " ++ toString closed ++ " ')'"
  | incompleteExpression text => "query ends after " ++ inQuotes text

end FilterQuery
