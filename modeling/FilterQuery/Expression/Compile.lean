import FilterQuery.Expression.Basic
import FilterQuery.Node.Basic
import FilterQuery.Query.Error

/-!
# Compiling token trees

The fields, operators and connectives of a tree are looked up in reading order, and the first token
that has no meaning where it stands is reported.
-/

namespace FilterQuery

namespace Token

/-- The field that a token names. -/
def toField (schema : Schema) (token : Token) : Except ParseError Field :=
  match if token.kind.isField then schema.field? token.raw else none with
  | some field => .ok field
  | none => .error (.unknownField token.raw)

/-- The operator that a token stands for. -/
def toOperator (token : Token) : Except ParseError Operator :=
  match token.kind.toOperator with
  | .unknown => .error (.unknownOperator token.raw)
  | operator => .ok operator

/-- The connective that a token stands for. -/
def toLogic (token : Token) : Except ParseError Logic :=
  match token.kind.toLogic with
  | .unknown => .error (.unknownLogic token.raw)
  | connective => .ok connective

/-- The value that a token carries as an operand. -/
def toValue (token : Token) : Except ParseError Value :=
  if token.kind.isValue then .ok token.value else .error (.invalidValue token.raw)

end Token

/-- The value of an operand. -/
def Operand.toValue : Operand → Except ParseError Value
  | single token => token.toValue
  | list tokens => (tokens.mapM Token.toValue).map .list

/-- The condition that the tokens of a leaf make up. -/
def Condition.ofLeaf (schema : Schema) (field operator : Token) (operand : Operand) :
    Except ParseError Condition := do
  let field ← field.toField schema
  let operator ← operator.toOperator
  let value ← operand.toValue
  return ⟨field.type, field.name, operator, value⟩

namespace Expression

mutual

/-- The expression that a token tree means under a schema. -/
def ofNode (schema : Schema) : Node → Except ParseError Expression
  | .leaf field operator operand =>
      (Condition.ofLeaf schema field operator operand).map condition
  | .logic connective children => do
      let connective ← connective.toLogic
      let children ← ofNodes schema children
      return logic connective children

/-- The expressions that a list of token trees means under a schema. -/
def ofNodes (schema : Schema) : List Node → Except ParseError (List Expression)
  | [] => .ok []
  | child :: rest => do
      let child ← ofNode schema child
      let rest ← ofNodes schema rest
      return child :: rest

end

end Expression

end FilterQuery
