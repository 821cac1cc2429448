/-!
# Operators and connectives

An operator either compares a field with an operand or asks whether the field is present at all.
The two families are types of their own, so whether an operand is expected is read off the
constructor.  Besides them there is the operator that no keyword resolves to, which a schema may
name but no query can use.
-/

namespace FilterQuery

/-- Operators that take an operand. -/
inductive Comparer
  | equal
  | notEqual
  | greaterThan
  | greaterThanOrEqual
  | lessThan
  | lessThanOrEqual
  | contain
  | notContain
  | startWith
  | notStartWith
  | endWith
  | notEndWith
  /-- Membership in a list of values. -/
  | anyOf
  /-- Negated membership in a list of values. -/
  | noneOf
  deriving DecidableEq

/-- Operators that take no operand. -/
inductive Presence
  /-- The value is missing or empty. -/
  | blank
  /-- The value is present. -/
  | notBlank
  deriving DecidableEq

/-- What a condition asks of its field. -/
inductive Operator
  | compare (relation : Comparer)
  | presence (test : Presence)
  /-- A keyword that resolved to no operator. -/
  | unknown
  deriving DecidableEq

/-- The name of a comparing operator in schemas and array queries. -/
def Comparer.name : Comparer → String
  | equal => "Equal"
  | notEqual => "NotEqual"
  | greaterThan => "GreaterThan"
  | greaterThanOrEqual => "GreaterThanOrEqual"
  | lessThan => "LessThan"
  | lessThanOrEqual => "LessThanOrEqual"
  | contain => "Contain"
  | notContain => "NotContain"
  | startWith => "StartWith"
  | notStartWith => "NotStartWith"
  | endWith => "EndWith"
  | notEndWith => "NotEndWith"
  | anyOf => "In"
  | noneOf => "NotIn"

/-- The words of a comparing operator in text queries. -/
def Comparer.keyword : Comparer → String
  | equal => "equal"
  | notEqual => "not equal"
  | greaterThan => "greater than"
  | greaterThanOrEqual => "greater than or equal"
  | lessThan => "less than"
  | lessThanOrEqual => "less than or equal"
  | contain => "contain"
  | notContain => "not contain"
  | startWith => "start with"
  | notStartWith => "not start with"
  | endWith => "end with"
  | notEndWith => "not end with"
  | anyOf => "in"
  | noneOf => "not in"

/-- Whether the operand of a comparing operator may be a list of values. -/
def Comparer.takesList : Comparer → Bool
  | anyOf | noneOf => true
  | _ => false

/-- The name of a presence operator in schemas and array queries. -/
def Presence.name : Presence → String
  | blank => "Blank"
  | notBlank => "NotBlank"

/-- The words of a presence operator in text queries. -/
def Presence.keyword : Presence → String
  | blank => "blank"
  | notBlank => "not blank"

namespace Operator

/-- The name of an operator in schemas and array queries. -/
def name : Operator → String
  | compare relation => relation.name
  | presence test => test.name
  | unknown => "Unknown"

/-- The words of an operator in text queries. -/
def keyword : Operator → String
  | compare relation => relation.keyword
  | presence test => test.keyword
  | unknown => "unknown"

/-- Whether an operator takes an operand. -/
def isComparer : Operator → Bool
  | compare _ => true
  | _ => false

/-- Whether an operator takes no operand. -/
def isPresence : Operator → Bool
  | presence _ => true
  | _ => false

/-- Whether the operand of an operator may be a list of values. -/
def takesList : Operator → Bool
  | compare relation => relation.takesList
  | _ => false

/-- Every operator that a keyword resolves to, in the order of their documentation. -/
def all : List Operator :=
  [compare .equal, compare .notEqual, compare .greaterThan, compare .greaterThanOrEqual,
    compare .lessThan, compare .lessThanOrEqual, presence .blank, presence .notBlank,
    compare .contain, compare .notContain, compare .startWith, compare .notStartWith,
    compare .endWith, compare .notEndWith, compare .anyOf, compare .noneOf]

/-- Every operator that a schema may name. -/
def declarable : List Operator :=
  all ++ [unknown]

/-- The operator with a given name. -/
def ofName? (name : String) : Option Operator :=
  declarable.find? (·.name == name)

end Operator

/-- The ways of joining conditions. -/
inductive Logic
  | and
  | or
  /-- A keyword that resolved to no connective. -/
  | unknown
  deriving DecidableEq

namespace Logic

/-- The name of a connective in array queries. -/
def name : Logic → String
  | and => "And"
  | or => "Or"
  | unknown => "Unknown"

/-- The connective between two conditions of a text query. -/
def joiner : Logic → String
  | and => " and "
  | or => " or "
  | unknown => " ? "

/-- The connective that a whole text names, as a word or as a symbol. -/
def ofKeyword (keyword : String) : Logic :=
  match String.ofList (keyword.toList.map Char.toLower) with
  | "and" | "&&" => and
  | "or" | "||" => or
  | _ => unknown

end Logic

end FilterQuery
