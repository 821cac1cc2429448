import FilterQuery.Expression.ArrayForm
import FilterQuery.Expression.Compile
import FilterQuery.Json.Document
import FilterQuery.Node.ArrayForm
import FilterQuery.Node.Assembly
import FilterQuery.Schema.Document
import FilterQuery.Token.Scan

/-!
# Compiling, validating and checking queries

A query is written in the text grammar or in the array grammar, and is compiled or only validated.
A check does either against a schema that is itself given as a text.
-/

namespace FilterQuery

/-! ## Compiling

Either grammar becomes a tree of tokens first and an expression then, and the empty query becomes
nothing. -/

/-- The ways of writing a query. -/
inductive Grammar
  | text
  | array
  deriving DecidableEq

namespace Schema

/-- The expression of a token tree, if there is a tree. -/
def compileNode (schema : Schema) : Option Node → Except ParseError (Option Expression)
  | none => .ok none
  | some node => (Expression.ofNode schema node).map some

/-- The token tree of an array query that is given as a text. -/
def readArrayQuery (schema : Schema) (query : String) : Except StructureError (Option Node) :=
  match Json.parse query with
  | .error error => .error (.json error)
  | .ok value => Node.ofQuery schema value

/-- Compile a text query. -/
def compileText (schema : Schema) (query : String) : Except ParseError (Option Expression) := do
  schema.compileNode (← Node.ofTokens (schema.scan query))

/-- Compile an array query that is given as a JSON value. -/
def compileJson (schema : Schema) (query : Json) : Except ParseError (Option Expression) := do
  schema.compileNode (← (Node.ofQuery schema query).mapError .malformed)

/-- Compile an array query that is given as a text. -/
def compileArray (schema : Schema) (query : String) : Except ParseError (Option Expression) := do
  schema.compileNode (← (schema.readArrayQuery query).mapError .malformed)

/-- Compile a query of either grammar. -/
def compile (schema : Schema) : Grammar → String → Except ParseError (Option Expression)
  | .text => schema.compileText
  | .array => schema.compileArray

end Schema

/-! ## Validating

A text query is judged by its tokens alone: none may be invalid, as many groups have to be closed as
are opened, and something has to follow the last token if it calls for more.  An array query is
judged by the first invalid token of its tree. -/

/-- Whether a query cannot end with a kind. -/
def TokenKind.callsForMore (kind : TokenKind) : Bool :=
  kind.isField || kind.isComparer || kind.isSeparator || kind.isLogic || kind == .openGroup

/-- The last token that is not a space. -/
def lastVisible? (tokens : List Token) : Option Token :=
  tokens.reverse.find? (·.kind != .space)

/-- The number of tokens of a kind. -/
def countKind (kind : TokenKind) (tokens : List Token) : Nat :=
  tokens.countP (·.kind == kind)

/-- Judge the end of a token list in which nothing else is wrong. -/
def validateEnd (tokens : List Token) : Except ValidationError Unit :=
  match lastVisible? tokens with
  | none => .ok ()
  | some token =>
      if token.kind.callsForMore then .error (.incompleteExpression token.raw) else .ok ()

/-- Judge the tokens of a text query. -/
def validateTokens (tokens : List Token) : Except ValidationError Unit :=
  match firstInvalid? tokens with
  | some token => .error (.invalidToken token.raw)
  | none =>
      let opened := countKind .openGroup tokens
      let closed := countKind .closeGroup tokens
      if opened = closed then validateEnd tokens else .error (.mismatchedGroups opened closed)

/-- Judge the token tree of an array query. -/
def validateNode : Option Node → Except ValidationError Unit
  | none => .ok ()
  | some node =>
      match node.invalid? with
      | some token => .error (.invalidToken token.raw)
      | none => .ok ()

namespace Schema

/-- Validate a text query. -/
def validateText (schema : Schema) (query : String) : Except ValidationError Unit :=
  validateTokens (schema.scan query)

/-- Validate an array query that is given as a text. -/
def validateArray (schema : Schema) (query : String) : Except ValidationError Unit := do
  validateNode (← (schema.readArrayQuery query).mapError .malformed)

/-- Validate a query of either grammar. -/
def validate (schema : Schema) : Grammar → String → Except ValidationError Unit
  | .text => schema.validateText
  | .array => schema.validateArray

end Schema

/-! ## Checking

A check reads a schema and then validates a query against it or compiles it.  A compiled query is
given in the array form of its expression. -/

/-- What is to be checked. -/
structure CheckRequest where
  query : String
  schema : String
  grammar : Grammar
  /-- Whether the query is only validated. -/
  validateOnly : Bool

/-- The outcome of a check that found nothing wrong. -/
inductive CheckResult
  | valid
  | empty
  | compiled (expression : Json)

/-- What a check found wrong. -/
inductive CheckError
  | schema (error : Json.ReadError SchemaFault)
  | parse (error : ParseError)
  | validation (error : ValidationError)

/-- The message of what a check found wrong. -/
def CheckError.message : CheckError → String
  | schema error => "Invalid schema: " ++ jsonMessage SchemaFault.message error
  | parse error => "Parse error: " ++ error.message
  | validation error => "Invalid query: " ++ error.message

namespace CheckRequest

/-- Check a query against a schema that has been read. -/
def judge (request : CheckRequest) (schema : Schema) : Except CheckError CheckResult :=
  if request.validateOnly then
    match schema.validate request.grammar request.query with
    | .ok () => .ok .valid
    | .error error => .error (.validation error)
  else
    match schema.compile request.grammar request.query with
    | .ok (some expression) => .ok (.compiled expression.toJson)
    | .ok none => .ok .empty
    | .error error => .error (.parse error)

/-- Check a query against a schema text. -/
def run (request : CheckRequest) : Except CheckError CheckResult :=
  match Schema.parse request.schema with
  | .ok schema => request.judge schema
  | .error error => .error (.schema error)

end CheckRequest

end FilterQuery
