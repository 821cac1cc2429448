import FilterQuery.Schema.Basic
import FilterQuery.Token.Basic

/-!
# What has been read so far

A context keeps of the tokens read so far what decides whether the next one is acceptable: the
latest field and operator, the kinds at the end, and how many groups were opened and closed.
Spaces leave a mark only as the latest token of all.
-/

namespace FilterQuery

/-- A summary of the tokens read so far. -/
structure Context where
  /-- The latest field, if its token names one. -/
  field : Option Field
  /-- The latest operator. -/
  operator : Option Operator
  /-- The kind of the latest token that is not a space. -/
  previous : Option TokenKind
  /-- The kind of the latest token. -/
  last : Option TokenKind
  opened : Nat
  closed : Nat
  deriving DecidableEq

namespace Context

/-- The context before the first token. -/
def start : Context :=
  ⟨none, none, none, none, 0, 0⟩

/-- Whether a field is expected: at the start, behind an opening parenthesis or a connective. -/
def expectsField (context : Context) : Bool :=
  context.previous.all (·.isBeforeField)

/-- Whether a value is expected: behind an operator or a separator. -/
def expectsValue (context : Context) : Bool :=
  context.previous.any fun kind => kind.isOperator || kind.isSeparator

/-- Whether the condition before is complete. -/
def isComplete (context : Context) : Bool :=
  context.previous.any (·.isComplete)

/-- Whether the latest operator takes an operand. -/
def takesOperand (context : Context) : Bool :=
  context.operator.any (·.isComparer)

/-- Whether the latest field takes any text. -/
def acceptsText (context : Context) : Bool :=
  context.field.any (·.type.element == .string)

/-- The context behind a token that is not a space. -/
def advance (schema : Schema) (context : Context) (token : Token) : Context :=
  let next := { context with previous := some token.kind, last := some token.kind }
  match token.kind with
  | .field => { next with field := token.value.content?.bind schema.field? }
  | .openGroup => { next with opened := context.opened + 1 }
  | .closeGroup => { next with closed := context.closed + 1 }
  | .comparer _ | .presence _ => { next with operator := some token.kind.toOperator }
  | _ => next

/-- The context behind a token. -/
def push (schema : Schema) (context : Context) (token : Token) : Context :=
  if token.kind = .space then { context with last := some .space }
  else context.advance schema token

end Context

end FilterQuery
