import FilterQuery.Token.Basic

/-!
# Token trees

Both grammars build the same tree of tokens before anything is looked up in the schema.  A leaf
has a field, an operator and an operand; an inner node joins its children by a connective.
-/

namespace FilterQuery

/-- The operand of a leaf. -/
inductive Operand
  | single (token : Token)
  /-- Values that were written as a list. -/
  | list (tokens : List Token)

/-- A tree of tokens. -/
inductive Node
  | leaf (field operator : Token) (operand : Operand)
  | logic (logic : Token) (children : List Node)

/-- The tokens of an operand, in order. -/
def Operand.tokens : Operand → List Token
  | single token => [token]
  | list tokens => tokens

/-- The first invalid token of a list. -/
def firstInvalid? (tokens : List Token) : Option Token :=
  tokens.find? (·.isInvalid)

namespace Node

mutual

/-- The first invalid token of a tree, a connective standing before its children. -/
def invalid? : Node → Option Token
  | leaf field operator operand => firstInvalid? (field :: operator :: operand.tokens)
  | logic connective children =>
      if connective.isInvalid then some connective else invalidAmong? children

/-- The first invalid token of a list of trees. -/
def invalidAmong? : List Node → Option Token
  | [] => none
  | child :: rest => child.invalid?.or (invalidAmong? rest)

end

end Node

end FilterQuery
