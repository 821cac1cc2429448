import FilterQuery.Operator
import FilterQuery.Schema.Basic
import FilterQuery.Value

/-!
# Tokens and their kinds

A token is a kind with a payload.  The kind that the shape of a text suggests is only a candidate:
what stands before it decides the kind it gets, and a text that is not acceptable where it stands
becomes an invalid token.
-/

namespace FilterQuery

/-! ## Kinds -/

/-- The lexical category of a token. -/
inductive TokenKind
  /-- A text that is not acceptable where it stands. -/
  | invalid
  | space
  | openGroup
  | closeGroup
  | comma
  | slash
  | and
  | or
  | comparer (relation : Comparer)
  | presence (test : Presence)
  /-- A field of the schema. -/
  | field
  /-- The missing operand of a presence operator. -/
  | noOperand
  /-- A value of a type. -/
  | value (type : ValueType)
  /-- A text of no particular shape. -/
  | literal
  deriving DecidableEq

namespace TokenKind

/-- Whether a kind is an operator that takes an operand. -/
def isComparer : TokenKind → Bool
  | comparer _ => true
  | _ => false

/-- Whether a kind is an operator that takes no operand. -/
def isPresence : TokenKind → Bool
  | presence _ => true
  | _ => false

/-- Whether a kind is an operator. -/
def isOperator (kind : TokenKind) : Bool :=
  kind.isComparer || kind.isPresence

/-- Whether a kind is an operand. -/
def isValue : TokenKind → Bool
  | noOperand | value _ => true
  | _ => false

/-- Whether a kind joins two conditions. -/
def isLogic : TokenKind → Bool
  | and | or => true
  | _ => false

/-- Whether a kind separates the values of a list. -/
def isSeparator : TokenKind → Bool
  | comma | slash => true
  | _ => false

/-- Whether a kind is a field. -/
def isField : TokenKind → Bool
  | field => true
  | _ => false

/-- Whether a field is expected behind a kind. -/
def isBeforeField (kind : TokenKind) : Bool :=
  kind == openGroup || kind.isLogic

/-- Whether a condition may end with a kind. -/
def isComplete (kind : TokenKind) : Bool :=
  kind.isValue || kind.isPresence || kind == closeGroup

/-- The operator that a kind stands for. -/
def toOperator : TokenKind → Operator
  | comparer relation => .compare relation
  | presence test => .presence test
  | _ => .unknown

/-- The connective that a kind stands for. -/
def toLogic : TokenKind → Logic
  | and => .and
  | or => .or
  | _ => .unknown

/-- The kind of an accepted operand of a field. -/
def ofFieldType (type : FieldType) : TokenKind :=
  value type.element

/-- The name of a kind. -/
def name : TokenKind → String
  | invalid => "None"
  | space => "Space"
  | openGroup => "OpenGroup"
  | closeGroup => "CloseGroup"
  | comma => "Comma"
  | slash => "Slash"
  | and => "And"
  | or => "Or"
  | comparer relation => relation.name
  | presence test => test.name
  | field => "Field"
  | noOperand => "Value"
  | value type => type.name ++ "Value"
  | literal => "Literal"

end TokenKind

/-! ## Tokens

Operands carry the value they mean, fields carry their name in the schema, and everything else
carries the text it was read from. -/

/-- One classified piece of a query. -/
structure Token where
  kind : TokenKind
  value : Value

namespace Token

/-- A token that carries a text. -/
def ofText (kind : TokenKind) (content : String) : Token :=
  ⟨kind, .text content⟩

/-- A text that is not acceptable where it stands. -/
def invalid (content : String) : Token :=
  ofText .invalid content

/-- The token that stands for the operand that a presence operator does not take. -/
def noOperand : Token :=
  ⟨.noOperand, .emptyText⟩

/-- Whether a token was refused where it stands. -/
def isInvalid (token : Token) : Bool :=
  token.kind == .invalid

/-- The payload of a token as text, in a form that can be classified again. -/
def raw (token : Token) : String :=
  token.value.display

/-- The kind of a token with its payload. -/
def display (token : Token) : String :=
  token.kind.name ++ "(" ++ token.raw ++ ")"

end Token

end FilterQuery
