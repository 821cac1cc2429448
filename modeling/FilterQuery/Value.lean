import FilterQuery.Binary64
import FilterQuery.Calendar.Date
import FilterQuery.Duration
import FilterQuery.Schema.Basic
import FilterQuery.Text

/-!
# Values

A value is what an operand means: a text, a number, a truth value, a day, a moment or a span of
time, or a list of values.  Each has one display text, which is also how it is written in queries
when it needs no quotes.
-/

namespace FilterQuery

/-- The meaning of an operand. -/
inductive Value
  | text (content : String)
  | number (amount : Binary64)
  | boolean (truth : Bool)
  | date (day : Date)
  | dateTime (moment : DateTime)
  /-- A span of time in seconds. -/
  | time (seconds : Int)
  | list (values : List Value)

namespace Value

/-- The empty text, which stands for a missing operand. -/
def emptyText : Value := text ""

mutual

/-- The display text of a value. -/
def display : Value → String
  | text content => content
  | number amount => String.ofList amount.toChars
  | boolean truth => if truth then "true" else "false"
  | date day => String.ofList day.toChars
  | dateTime moment => String.ofList moment.toChars
  | time seconds => String.ofList (Duration.toChars seconds)
  | list values => ", ".intercalate (displayEach values)

/-- The display texts of the values of a list. -/
def displayEach : List Value → List String
  | [] => []
  | value :: rest => value.display :: displayEach rest

end

mutual

/-- Whether two values are equal, numbers being compared as numbers. -/
def equals : Value → Value → Bool
  | text left, text right => left == right
  | number left, number right => left.numericallyEqual right
  | boolean left, boolean right => left == right
  | date left, date right => left == right
  | dateTime left, dateTime right => left == right
  | time left, time right => left == right
  | list left, list right => equalsEach left right
  | _, _ => false

/-- Whether two lists of values are equal, value by value. -/
def equalsEach : List Value → List Value → Bool
  | [], [] => true
  | left :: lefts, right :: rights => left.equals right && equalsEach lefts rights
  | _, _ => false

end

/-- The content of a text value. -/
def content? : Value → Option String
  | text content => some content
  | _ => none

end Value

/-! ## Reading values of a type

Every field type accepts some literal forms.  An array type accepts the forms of its elements, one
value at a time.  Every text is a text value, so only the other types refuse anything. -/

/-- Read a truth value, in any letter case. -/
def readBoolean? (text : String) : Option Bool :=
  if sameCaseless text "true" then some true
  else if sameCaseless text "false" then some false
  else none

namespace ValueType

/-- The value that a text means for a value type, if it is one of its literals. -/
def cast? (type : ValueType) (text : String) : Option Value :=
  match type with
  | string => some (.text (stripQuotes text))
  | number => (Binary64.ofPlainChars? text.toList).map .number
  | boolean => (readBoolean? text).map .boolean
  | date => (Date.ofChars? text.toList).map .date
  | dateTime => (DateTime.ofChars? text.toList).map .dateTime
  | time => (Duration.ofChars? text.toList).map fun seconds => .time seconds

end ValueType

namespace FieldType

/-- The value that a text means as an operand of a field. -/
def cast? (type : FieldType) (text : String) : Option Value :=
  type.element.cast? text

end FieldType

end FilterQuery
