import FilterQuery.Lexicon.Find
import FilterQuery.Token.Context
import FilterQuery.Value

/-!
# Classifying a text where it stands

The kind that a pattern suggests is only a candidate.  Whether it holds is decided by what stands
before: the same text may become a field, a value of the field's type or an invalid token.
-/

namespace FilterQuery

namespace Token

/-- A token for a text that is acceptable, or an invalid token if it is not. -/
def acceptedIf (acceptable : Bool) (kind : TokenKind) (raw : String) : Token :=
  if acceptable then ofText kind raw else invalid raw

end Token

namespace Field

/-- The text that stands for an operand of a field: the value of the lookup it names, with or
without its quotes, or else the operand itself. -/
def substitute (field : Field) (raw : String) : String :=
  (((field.lookup? raw).or (field.lookup? (stripQuotes raw))).map (·.value)).getD raw

/-- The value that an operand of a field means, lookups included. -/
def operand? (field : Field) (raw : String) : Option Value :=
  field.type.cast? (field.substitute raw)

end Field

namespace Context

/-- The operand that a text means for the latest field and operator. -/
def valueToken (context : Context) (raw : String) : Token :=
  match context.field with
  | none => Token.invalid raw
  | some field =>
      match field.operand? raw with
      | some value =>
          if context.takesOperand then ⟨.ofFieldType field.type, value⟩ else Token.invalid raw
      | none => Token.invalid raw

/-- Whether an operator is acceptable: right behind a field that allows it. -/
def allows (context : Context) (operator : Operator) : Bool :=
  context.previous == some .field && context.field.any (·.allows operator)

/-- Whether a separator is acceptable: right behind a value of a list. -/
def allowsSeparator (context : Context) : Bool :=
  context.operator.any (·.takesList) && context.previous.any (·.isValue)

/-- Whether a closing parenthesis is acceptable: behind a complete condition in an open group. -/
def allowsClose (context : Context) : Bool :=
  context.closed < context.opened && context.isComplete

end Context

namespace Schema

/-- The field that a text names, under its name in the schema. -/
def fieldToken (schema : Schema) (raw : String) : Token :=
  match schema.field? raw with
  | some field => Token.ofText .field field.name
  | none => Token.invalid raw

/-- The token that a candidate becomes in a context.  There is none for a repeated space. -/
def classify (schema : Schema) (context : Context) (kind : TokenKind) (raw : String) :
    Option Token :=
  match kind with
  | .space => if context.last = some .space then none else some (Token.ofText .space raw)
  | .invalid => some (Token.invalid raw)
  | .field | .literal =>
      if context.expectsField then some (schema.fieldToken raw)
      else if context.expectsValue then some (context.valueToken raw)
      else some (Token.invalid raw)
  | .noOperand | .value _ =>
      if context.expectsValue then some (context.valueToken raw) else some (Token.invalid raw)
  | .comparer _ | .presence _ =>
      some (Token.acceptedIf (context.allows kind.toOperator) kind raw)
  | .and | .or => some (Token.acceptedIf context.isComplete kind raw)
  | .openGroup => some (Token.acceptedIf context.expectsField kind raw)
  | .closeGroup => some (Token.acceptedIf context.allowsClose kind raw)
  | .comma | .slash => some (Token.acceptedIf context.allowsSeparator kind raw)

end Schema

end FilterQuery
