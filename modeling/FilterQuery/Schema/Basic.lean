import FilterQuery.Operator
import FilterQuery.Text

/-!
# Schemas

A schema lists the fields that a query may use.  A field is named by its name or its label, has a
type, allows some operators and may give names to some of its values.
-/

namespace FilterQuery

/-! ## Field types

A field holds a single value of one of six types or an array of such values.  Operands are always
single values, so an array field takes operands of its element type. -/

/-- The type of a single value. -/
inductive ValueType
  | string
  | number
  | boolean
  | date
  | time
  | dateTime
  deriving DecidableEq

/-- The declared type of a field. -/
structure FieldType where
  element : ValueType
  isArray : Bool
  deriving DecidableEq

/-- The name of a value type in schemas. -/
def ValueType.name : ValueType → String
  | string => "String"
  | number => "Number"
  | boolean => "Boolean"
  | date => "Date"
  | time => "Time"
  | dateTime => "DateTime"

/-- Every value type. -/
def ValueType.all : List ValueType :=
  [string, number, boolean, date, time, dateTime]

namespace FieldType

/-- The type of a field that holds a single value. -/
def single (element : ValueType) : FieldType :=
  ⟨element, false⟩

/-- The type of a field that holds an array of values. -/
def array (element : ValueType) : FieldType :=
  ⟨element, true⟩

/-- The name of a field type in schemas. -/
def name (type : FieldType) : String :=
  if type.isArray then type.element.name ++ "Array" else type.element.name

/-- Every field type, single values first. -/
def all : List FieldType :=
  ValueType.all.map single ++ ValueType.all.map array

/-- The field type with a given name. -/
def ofName? (name : String) : Option FieldType :=
  all.find? (·.name == name)

end FieldType

/-! ## Fields

Names are compared without regard to ASCII letter case, and the first match in the list counts. -/

/-- A name for a value of a field, together with the text it stands for. -/
structure Lookup where
  name : String
  value : String
  deriving DecidableEq

/-- A named and typed slot of the records to be filtered. -/
structure Field where
  name : String
  label : String
  type : FieldType
  operators : List Operator
  values : List Lookup
  deriving DecidableEq

/-- The fields that a query may use, in order. -/
structure Schema where
  fields : List Field
  deriving DecidableEq

namespace Field

/-- Whether a text names a field, by its name or by its label.  The empty label names nothing. -/
def isNamed (field : Field) (text : String) : Bool :=
  sameCaseless field.name text || (field.label != "" && sameCaseless field.label text)

/-- Whether a field allows an operator. -/
def allows (field : Field) (operator : Operator) : Bool :=
  field.operators.contains operator

/-- The first lookup of a field with a given name. -/
def lookup? (field : Field) (name : String) : Option Lookup :=
  field.values.find? fun lookup => sameCaseless lookup.name name

end Field

namespace Schema

/-- The first field that a text names. -/
def field? (schema : Schema) (text : String) : Option Field :=
  schema.fields.find? (·.isNamed text)

end Schema

end FilterQuery
