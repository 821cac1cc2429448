import FilterQuery.Json.Basic
import FilterQuery.Node.Basic
import FilterQuery.Query.Error
import FilterQuery.Token.Classify

/-!
# Token trees of array queries

An array of three elements is a leaf, an array of two a connective with its children.  The pieces
of a leaf are classified as they would be in a text query that starts with them, and every position
holds only its own kind of token.  A text that is no single literal is taken whole by a field of
texts.
-/

namespace FilterQuery

namespace Json

/-- The content of a string. -/
def stringContent : Json → Except StructureError String
  | string content => .ok content
  | _ => .error .expectedString

/-- The text of a scalar as an operand.  The value null is the empty operand. -/
def scalarText : Json → Except StructureError String
  | string content => .ok content
  | number amount => .ok (String.ofList amount.toChars)
  | boolean truth => .ok (if truth then "true" else "false")
  | null => .ok ""
  | array _ | object _ => .error .expectedScalar

end Json

/-- A token if it is of the kind that belongs in its position, and an invalid one otherwise. -/
def Token.inSlot (token : Token) (text : String) (belongs : TokenKind → Bool) : Token :=
  if token.isInvalid || belongs token.kind then token else invalid text

namespace Schema

/-- The token of a field or an operator that is given as a whole text. -/
def slotToken (schema : Schema) (context : Context) (text : String)
    (belongs : TokenKind → Bool) : Token :=
  let token := (schema.findExact? text).bind fun kind => schema.classify context kind text
  (token.getD (Token.invalid text)).inSlot text belongs

/-- The token of a whole text as an operand. -/
def wholeOperand (schema : Schema) (context : Context) (text : String) : Token :=
  match schema.findExact? text with
  | some kind => (schema.classify context kind text).getD (Token.invalid text)
  | none =>
      if context.acceptsText && context.expectsValue then context.valueToken text
      else Token.invalid text

/-- The token of an operand that is given as a whole text.  Only a presence operator takes the
empty operand. -/
def operandToken (schema : Schema) (context : Context) (text : String) : Token :=
  if context.operator.any (·.isPresence) && text == "" then Token.noOperand
  else (schema.wholeOperand context text).inSlot text TokenKind.isValue

/-- The context behind a separator. -/
def separate (schema : Schema) (context : Context) : Context :=
  context.push schema ((schema.classify context .comma ",").getD (Token.invalid ","))

/-- The tokens of a list of operands, each behind a separator but the first. -/
def operandTokens (schema : Schema) (context : Context) :
    List Json → Except StructureError (List Token)
  | [] => .ok []
  | value :: rest => do
      let token := schema.operandToken context (← value.scalarText)
      let tokens ← operandTokens schema (schema.separate (context.push schema token)) rest
      return token :: tokens

/-- The operand of a leaf. -/
def arrayOperand (schema : Schema) (context : Context) : Json → Except StructureError Operand
  | .array [] => .error .emptyList
  | .array values => (schema.operandTokens context values).map .list
  | value => (value.scalarText).map fun text => .single (schema.operandToken context text)

/-- The leaf of an array of three elements. -/
def arrayLeaf (schema : Schema) (field operator operand : Json) :
    Except StructureError Node := do
  let field := schema.slotToken Context.start (← field.stringContent) TokenKind.isField
  let context := Context.start.push schema field
  let operator := schema.slotToken context (← operator.stringContent) TokenKind.isOperator
  let operand ← schema.arrayOperand (context.push schema operator) operand
  return .leaf field operator operand

end Schema

/-- The token of a connective that is given as a whole text. -/
def Token.ofConnective (keyword : String) : Token :=
  match Logic.ofKeyword keyword with
  | .and => ofText .and keyword
  | .or => ofText .or keyword
  | .unknown => invalid keyword

namespace Node

mutual

/-- The token tree of a JSON value. -/
def ofJson (schema : Schema) : Json → Except StructureError Node
  | .array [field, operator, operand] => schema.arrayLeaf field operator operand
  | .array [connective, children] => do
      let connective := Token.ofConnective (← connective.stringContent)
      match children with
      | .array [] => .error .emptyList
      | .array (first :: rest) => return .logic connective (← ofJsonEach schema (first :: rest))
      | _ => .error .notAnArray
  | .array items => .error (.invalidArity items.length)
  | _ => .error .notAnArray

/-- The token trees of a list of JSON values. -/
def ofJsonEach (schema : Schema) : List Json → Except StructureError (List Node)
  | [] => .ok []
  | value :: rest => do
      let node ← ofJson schema value
      let nodes ← ofJsonEach schema rest
      return node :: nodes

end

/-- The token tree of an array query, or nothing for the empty query. -/
def ofQuery (schema : Schema) : Json → Except StructureError (Option Node)
  | .array [] => .ok none
  | value => (ofJson schema value).map some

end Node

end FilterQuery
