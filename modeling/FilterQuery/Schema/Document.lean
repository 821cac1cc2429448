import FilterQuery.Character.Printable
import FilterQuery.Json.Document
import FilterQuery.Json.Printer
import FilterQuery.Schema.Basic

/-!
# Schemas as JSON documents

A schema is read straight from its text, so the first problem in reading order is the one that is
reported.  It is written with every part, also those that may be missing when it is read.
-/

namespace FilterQuery

/-! ## Texts in messages

A message quotes a text in double quotes and keeps it on one line.  Quotes and backslashes are
escaped, and a character that would not show is given by its code in hexadecimal. -/

/-- A character as it is shown in a quoted text. -/
def quotedChar (c : Char) : List Char :=
  if c = '\x00' then ['\\', '0']
  else if c = '\t' then ['\\', 't']
  else if c = '\n' then ['\\', 'n']
  else if c = '\x0d' then ['\\', 'r']
  else if c = '"' ∨ c = '\\' then ['\\', c]
  else if Character.isPrintable c then [c]
  else '\\' :: 'u' :: '\x7b' :: Nat.toDigits 16 c.toNat ++ ['\x7d']

/-- A text as it is quoted in a message. -/
def quoted (text : String) : String :=
  String.ofList ('"' :: text.toList.flatMap quotedChar ++ ['"'])

/-! ## Faults

A schema text that is sound JSON may still not describe a schema.  Each way of failing is a cause
of its own, with the wording of all of them in one place. -/

/-- What stands where something else was expected. -/
inductive Found
  | null
  | boolean (truth : Bool)
  | number (amount : JsonNumber)
  | string (content : String)
  | sequence
  | map

/-- Why the content of a schema text does not describe a schema. -/
inductive SchemaFault
  | missingField (name : String)
  | duplicateField (name : String)
  | unknownVariant (name : String) (expected : List String)
  | invalidType (found : Found) (expected : String)
  | invalidLength (length : Nat) (expected : String)
  | compoundLookup (value : Json)

/-- What was found, in words. -/
def Found.message : Found → String
  | null => "null"
  | boolean truth => if truth then "boolean `true`" else "boolean `false`"
  | number (.integer value) => "integer `" ++ toString value ++ "`"
  | number amount => "floating point `" ++ String.ofList amount.toChars ++ "`"
  | string content => "string " ++ quoted content
  | sequence => "sequence"
  | map => "map"

/-- The message of a fault. -/
def SchemaFault.message : SchemaFault → String
  | missingField name => "missing field `" ++ name ++ "`"
  | duplicateField name => "duplicate field `" ++ name ++ "`"
  | unknownVariant name expected =>
      "unknown variant `" ++ name ++ "`, expected one of " ++
        ", ".intercalate (expected.map fun other => "`" ++ other ++ "`")
  | invalidType found expected => "invalid type: " ++ found.message ++ ", expected " ++ expected
  | invalidLength length expected =>
      "invalid length " ++ toString length ++ ", expected " ++ expected
  | compoundLookup value => "lookup value must be a scalar, got " ++ value.compact

/-! ## Writing

The parts of a schema stand in the order in which they are declared. -/

/-- A lookup as a JSON value. -/
def Lookup.toJson (lookup : Lookup) : Json :=
  .object [("name", .string lookup.name), ("value", .string lookup.value)]

/-- A field as a JSON value. -/
def Field.toJson (field : Field) : Json :=
  .object
    [("name", .string field.name), ("label", .string field.label),
      ("type", .string field.type.name),
      ("operators", .array (field.operators.map fun operator => .string operator.name)),
      ("values", .array (field.values.map Lookup.toJson))]

/-- A schema as a JSON value. -/
def Schema.toJson (schema : Schema) : Json :=
  .object [("fields", .array (schema.fields.map Field.toJson))]

/-! ## Reading

A record is written as an object of its parts, in any order and with unknown members skipped, or as
an array of them in their order.  A name out of a fixed list is written as a string or as an object
that gives it the value null. -/

open Json

/-- Reading that may fail on the content of a schema text. -/
abbrev SchemaReader (α : Type) := Reader SchemaFault α

namespace SchemaReader

variable {α β σ : Type}

/-- Fail on the content of a text. -/
def reject (fault : SchemaFault) : SchemaReader α :=
  Reader.fail (.content fault)

/-- Fail because something else was expected.  What stands there is read as far as the message
needs it. -/
def mismatch (expected : String) : SchemaReader α :=
  Reader.byFirst fun first =>
    let refused {γ : Type} (reader : SchemaReader γ) (found : γ → Found) : SchemaReader α :=
      reader.refine fun c => .error (.content (.invalidType (found c) expected))
    if first = 'n' then refused (Reader.word 'n' ['u', 'l', 'l']) fun _ => .null
    else if first = 't' then refused (Reader.word 't' ['r', 'u', 'e']) fun _ => .boolean true
    else if first = 'f' then
      refused (Reader.word 'f' ['a', 'l', 's', 'e']) fun _ => .boolean false
    else if first = '"' then refused (stringReader Rules.strict) .string
    else if first = '-' ∨ first.isDigit then refused (numberReader Rules.strict) .number
    else if first = '[' then reject (.invalidType .sequence expected)
    else if first = '\x7b' then reject (.invalidType .map expected)
    else Reader.fail .malformed

/-- Read a string. -/
def string (expected : String) : SchemaReader String :=
  Reader.byFirst fun first =>
    if first = '"' then stringReader Rules.strict else mismatch expected

/-- Read the value null. -/
def unit : SchemaReader Unit :=
  Reader.byFirst fun first =>
    if first = 'n' then Reader.word 'n' ['u', 'l', 'l'] else mismatch "unit"

/-- Read an array of items of one kind. -/
def sequence (item : SchemaReader α) : SchemaReader (List α) :=
  Reader.byFirst fun first =>
    if first = '[' then Reader.skipChar.andThen (Reader.items ']' item)
    else mismatch "a sequence"

/-! ## Names out of a list -/

/-- Read a name and look up what it stands for. -/
def name (ofName? : String → Option α) (names : List String) : SchemaReader α :=
  (string "variant identifier").refine fun given =>
    match ofName? given with
    | some a => .ok a
    | none => .error (.content (.unknownVariant given names))

/-- Read a name out of a list, as a string or as the only member of an object. -/
def variant (ofName? : String → Option α) (names : List String) : SchemaReader α :=
  Reader.byFirst fun first =>
    if first = '"' then name ofName? names
    else if first = '\x7b' then
      Reader.skipChar.andThen <|
        (name ofName? names).bind fun a =>
          (Reader.expect ':').andThen <| unit.andThen <|
            (Reader.expect '\x7d').map fun _ => a
    else Reader.fail .malformed

/-! ## Records -/

/-- A part of a record that is being read into a draft of it. -/
structure Part (σ : Type) where
  name : String
  isSet : σ → Bool
  read : σ → SchemaReader σ

/-- A part that is kept in the draft as an optional value. -/
def Part.optional (name : String) (get : σ → Option α) (set : σ → α → σ)
    (reader : SchemaReader α) : Part σ :=
  ⟨name, fun draft => (get draft).isSome, fun draft => reader.map (set draft)⟩

/-- A part that a record lacks, with its position. -/
structure Missing where
  position : Nat
  name : String

/-- The value of a part that a record has to have. -/
def require (position : Nat) (name : String) : Option α → Except Missing α
  | some a => .ok a
  | none => .error ⟨position, name⟩

/-- Read a member of a record. -/
def member (parts : List (Part σ)) (draft : σ) : SchemaReader σ :=
  (stringReader Rules.strict).bind fun name =>
    match parts.find? (·.name == name) with
    | some part =>
        if part.isSet draft then reject (.duplicateField name)
        else (Reader.expect ':').andThen (part.read draft)
    | none => (Reader.expect ':').andThen (valueSkipper.map fun _ => draft)

/-- Read an element of a record that is written as an array. -/
def element (parts : List (Part σ)) (state : Nat × σ) : SchemaReader (Nat × σ) :=
  match parts[state.1]? with
  | some part => (part.read state.2).map fun draft => (state.1 + 1, draft)
  | none => Reader.fail .malformed

/-- A number of elements, in words. -/
def elements (count : Nat) : String :=
  toString count ++ if count = 1 then " element" else " elements"

/-- Read a record with a title, given its parts, an empty draft and how to complete a draft. -/
def record (title : String) (parts : List (Part σ)) (empty : σ)
    (complete : σ → Except Missing α) : SchemaReader α :=
  Reader.byFirst fun first =>
    if first = '\x7b' then
      Reader.skipChar.andThen <|
        (Reader.foldUntil '\x7d' (member parts) empty).refine fun draft =>
          (complete draft).mapError fun missing => .content (.missingField missing.name)
    else if first = '[' then
      Reader.skipChar.andThen <|
        (Reader.foldUntil ']' (element parts) (0, empty)).refine fun state =>
          (complete state.2).mapError fun missing =>
            .content <| .invalidLength missing.position <|
              "struct " ++ title ++ " with " ++ elements parts.length
    else mismatch ("struct " ++ title)

end SchemaReader

open SchemaReader

namespace Lookup

/-- A lookup of which some parts are known. -/
structure Draft where
  name : Option String
  value : Option String

/-- The text that a scalar stands for as the value of a lookup. -/
def literalText : Json → Except (ReadError SchemaFault) String
  | .string content => .ok content
  | .null => .ok ""
  | .boolean truth => .ok (if truth then "true" else "false")
  | .number amount => .ok (String.ofList amount.toChars)
  | value => .error (.content (.compoundLookup value))

/-- The nesting that is left for the value of a lookup, which stands inside of the schema, its
fields, a field, its values and the lookup. -/
def valueNesting : Nat := maxNesting - 5

/-- The parts of a lookup. -/
def parts : List (SchemaReader.Part Draft) :=
  [.optional "name" Draft.name (fun draft name => { draft with name := some name })
      (string "a string"),
    .optional "value" Draft.value (fun draft value => { draft with value := some value })
      ((valueReader Rules.strict valueNesting).refine literalText)]

/-- A lookup with all of its parts. -/
def Draft.complete (draft : Draft) : Except Missing Lookup := do
  return ⟨← require 0 "name" draft.name, ← require 1 "value" draft.value⟩

/-- Read a lookup. -/
def reader : SchemaReader Lookup :=
  record "Lookup" parts ⟨none, none⟩ Draft.complete

end Lookup

namespace Field

/-- A field of which some parts are known. -/
structure Draft where
  name : Option String
  label : Option String
  type : Option FieldType
  operators : Option (List Operator)
  values : Option (List Lookup)

/-- The parts of a field. -/
def parts : List (SchemaReader.Part Draft) :=
  [.optional "name" Draft.name (fun draft name => { draft with name := some name })
      (string "a string"),
    .optional "label" Draft.label (fun draft label => { draft with label := some label })
      (string "a string"),
    .optional "type" Draft.type (fun draft type => { draft with type := some type })
      (variant FieldType.ofName? (FieldType.all.map (·.name))),
    .optional "operators" Draft.operators
      (fun draft operators => { draft with operators := some operators })
      (sequence (variant Operator.ofName? (Operator.declarable.map (·.name)))),
    .optional "values" Draft.values (fun draft values => { draft with values := some values })
      (sequence Lookup.reader)]

/-- A field with all of its parts, those that may be missing being empty. -/
def Draft.complete (draft : Draft) : Except Missing Field := do
  return ⟨← require 0 "name" draft.name, draft.label.getD "", ← require 2 "type" draft.type,
    draft.operators.getD [], draft.values.getD []⟩

/-- Read a field. -/
def reader : SchemaReader Field :=
  record "Field" parts ⟨none, none, none, none, none⟩ Draft.complete

end Field

namespace Schema

/-- The parts of a schema, whose draft is the list of its fields. -/
def parts : List (SchemaReader.Part (Option (List Field))) :=
  [.optional "fields" id (fun _ fields => some fields) (sequence Field.reader)]

/-- Read a schema. -/
def reader : SchemaReader Schema :=
  record "Metadata" parts none fun draft => (require 0 "fields" draft).map Schema.mk

/-- The schema that a text describes. -/
def parse (text : String) : Except (ReadError SchemaFault) Schema :=
  readDocument reader text.toList

end Schema

end FilterQuery
