import FilterQuery.Schema.Basic
import FilterQuery.Value

/-!
# Compiled expressions

An expression carries everything that is needed to filter by it: each condition has the type and
the name of its field, an operator and the value of its operand, and conditions are joined by
connectives to any depth.
-/

namespace FilterQuery

/-- A test on one field. -/
structure Condition where
  type : FieldType
  /-- The name of the field in its schema, however the query called it. -/
  field : String
  operator : Operator
  /-- The operand, the empty text if the operator takes none. -/
  value : Value

/-- A tree of conditions. -/
inductive Expression
  | condition (test : Condition)
  | logic (connective : Logic) (children : List Expression)

/-- Whether two conditions are equal, numbers being compared as numbers. -/
def Condition.equals (left right : Condition) : Bool :=
  left.type == right.type && left.field == right.field && left.operator == right.operator &&
    left.value.equals right.value

namespace Expression

mutual

/-- The names of the fields that an expression tests, in order of appearance. -/
def fieldNames : Expression → List String
  | condition test => [test.field]
  | logic _ children => fieldNamesAmong children

/-- The names of the fields that a list of expressions tests. -/
def fieldNamesAmong : List Expression → List String
  | [] => []
  | child :: rest => child.fieldNames ++ fieldNamesAmong rest

end

mutual

/-- Whether two expressions are equal, numbers being compared as numbers. -/
def equals : Expression → Expression → Bool
  | condition left, condition right => left.equals right
  | logic connective left, logic connective' right =>
      connective == connective' && equalsEach left right
  | _, _ => false

/-- Whether two lists of expressions are equal one by one. -/
def equalsEach : List Expression → List Expression → Bool
  | [], [] => true
  | left :: lefts, right :: rights => left.equals right && equalsEach lefts rights
  | _, _ => false

end

end Expression

/-! ## Expressions as text queries

An expression is written with the keywords of its operators, and with parentheses around every
connective below another one.  Texts are quoted by whichever quote they do not hold; the text
grammar has no escapes, so one that holds both is written in single quotes and does not read
back. -/

namespace Value

/-- A text between quotes. -/
def quoteText (content : String) : String :=
  if content.toList.contains '"' then "'" ++ content ++ "'" else "\"" ++ content ++ "\""

mutual

/-- A value as it is written as an operand. -/
def operandText : Value → String
  | text content => quoteText content
  | list values => ", ".intercalate (operandTexts values)
  | value => value.display

/-- The values of a list as they are written as operands. -/
def operandTexts : List Value → List String
  | [] => []
  | value :: rest => value.operandText :: operandTexts rest

end

end Value

/-- A condition as a text query. -/
def Condition.display (test : Condition) : String :=
  test.field ++ " " ++ test.operator.keyword ++
    if test.operator.isComparer then " " ++ test.value.operandText else ""

namespace Expression

mutual

/-- An expression as a text query. -/
def display : Expression → String
  | condition test => test.display
  | logic connective children => connective.joiner.intercalate (displayEach children)

/-- The children of a connective as text queries, connectives among them in parentheses. -/
def displayEach : List Expression → List String
  | [] => []
  | condition test :: rest => test.display :: displayEach rest
  | logic connective children :: rest =>
      ("(" ++ display (logic connective children) ++ ")") :: displayEach rest

end

end Expression

end FilterQuery
