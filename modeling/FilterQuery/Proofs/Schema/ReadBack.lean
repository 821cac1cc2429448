import FilterQuery.Proofs.Json.Reading
import FilterQuery.Schema.Document

/-!
# Schemas read back

A schema is written with all of its parts, each as a member of its own, and is read back from
that.  Defaults, arrays in place of objects and lookup values that are no strings are gone once a
schema has been read, so writing and reading it again changes nothing.
-/

namespace FilterQuery

open Json Reader

/-! ## Names -/

theorem Operator.ofName?_name (operator : Operator) : ofName? operator.name = some operator := by
  rcases operator with relation | test | _
  · cases relation <;> decide
  · cases test <;> decide
  · decide

theorem FieldType.ofName?_name (type : FieldType) : ofName? type.name = some type := by
  rcases type with ⟨element, isArray⟩
  cases element <;> cases isArray <;> decide

namespace SchemaReader

variable {α σ : Type}

theorem yields_string (expected content : String) :
    (string expected).Yields (quote content) (.ok content) := by
  refine Yields.byFirst rfl ?_
  rw [if_pos rfl]
  exact yields_stringReader Rules.strict content

/-- A name is read as what it stands for. -/
theorem yields_variant {ofName? : String → Option α} {given : String} {a : α}
    (known : ofName? given = some a) (names : List String) :
    (variant ofName? names).Yields (quote given) (.ok a) := by
  refine Yields.byFirst rfl ?_
  rw [if_pos rfl]
  exact (yields_string "variant identifier" given).refine_ok (by rw [known])

/-- A list of items that are each read back is read back. -/
theorem yields_sequence {item : SchemaReader α} {toJson : α → Json} {entries : List α}
    (yields : ∀ entry ∈ entries, item.Yields (toJson entry).compactChars (.ok entry))
    (opens : ∀ entry ∈ entries, Opens (toJson entry).compactChars) :
    (sequence item).Yields (Json.array (entries.map toJson)).compactChars (.ok entries) := by
  have whole := (yields_items (Or.inl rfl) yields opens).skip '['
  have found : entries.mapM (fun entry => (.ok entry : Except (ReadError SchemaFault) α)) =
      .ok (entries.map id) := List.mapM_pure
  rw [found, List.map_id] at whole
  rw [compactChars, compactItems_eq, List.map_map]
  refine Yields.byFirst rfl ?_
  rw [if_pos rfl]
  exact whole

/-- A member of a record is read as the part of its name, unless that is known already. -/
theorem yields_member {parts : List (Part σ)} {part : Part σ} {draft next : σ} {name : String}
    {value : Json} (found : parts.find? (·.name == name) = some part)
    (unset : part.isSet draft = false)
    (yields : (part.read draft).Yields value.compactChars (.ok next)) :
    (member parts draft).Yields (memberChars (name, value)) (.ok next) := by
  refine (yields_stringReader Rules.strict name).bind (delimits_cons.mpr (Or.inr (Or.inl rfl))) ?_
  simp only [found, unset]
  exact yields.expect rfl

theorem opens_memberChars (member : String × Json) : Opens (memberChars member) :=
  ⟨'"', _, rfl, rfl, by decide, by decide⟩

/-- A record is read back when its members make up a draft that can be completed to it. -/
theorem yields_record {parts : List (Part σ)} {empty : σ} {complete : σ → Except Missing α}
    {members : List (String × Json)} {a : α} (title : String) (draft : σ)
    (each : YieldsEach (member parts) empty (members.map memberChars) (.ok draft))
    (completed : complete draft = .ok a) :
    (record title parts empty complete).Yields (Json.object members).compactChars (.ok a) := by
  have whole := each.foldUntil (Or.inr rfl) (by
    intro written member
    obtain ⟨pair, _, rfl⟩ := List.mem_map.mp member
    exact opens_memberChars pair)
  rw [compactChars, compactMembers_eq]
  refine Yields.byFirst rfl ?_
  rw [if_pos rfl]
  exact (whole.refine_ok (by rw [completed]; rfl)).skip '\x7b'

theorem opens_object (members : List (String × Json)) : Opens (Json.object members).compactChars :=
  ⟨'\x7b', _, by rw [compactChars], rfl, by decide, by decide⟩

end SchemaReader

open SchemaReader

/-- The value of a lookup is read as the text that it is written as. -/
theorem Lookup.yields_value (text : String) :
    ((valueReader Rules.strict valueNesting).refine literalText).Yields (quote text)
      (.ok text) := by
  have value : (valueReader Rules.strict valueNesting).Yields (quote text)
      (.ok (Json.string text) : Except (ReadError SchemaFault) Json) := by
    rw [valueReader]
    refine Yields.byFirst rfl ?_
    exact (yields_stringReader Rules.strict text).map Json.string
  exact value.refine literalText

/-- A lookup is read back. -/
theorem Lookup.yields_toJson (lookup : Lookup) :
    reader.Yields lookup.toJson.compactChars (.ok lookup) := by
  refine yields_record "Lookup" ⟨some lookup.name, some lookup.value⟩ ?_ rfl
  refine .cons (yields_member rfl rfl ((yields_string _ lookup.name).map _)) ?_
  refine .cons (yields_member rfl rfl ((yields_value lookup.value).map _)) ?_
  exact .nil _

/-- A field is read back. -/
theorem Field.yields_toJson (field : Field) :
    reader.Yields field.toJson.compactChars (.ok field) := by
  have operators : (sequence (variant Operator.ofName? (Operator.declarable.map (·.name)))).Yields
      (Json.array (field.operators.map fun operator => .string operator.name)).compactChars
      (.ok field.operators) :=
    yields_sequence (fun operator _ => yields_variant operator.ofName?_name _)
      fun operator _ => opens_quote operator.name
  have values : (sequence Lookup.reader).Yields
      (Json.array (field.values.map Lookup.toJson)).compactChars (.ok field.values) :=
    yields_sequence (fun lookup _ => lookup.yields_toJson) fun _ _ => opens_object _
  refine yields_record "Field"
    ⟨some field.name, some field.label, some field.type, some field.operators,
      some field.values⟩ ?_ rfl
  refine .cons (yields_member rfl rfl ((yields_string _ field.name).map _)) ?_
  refine .cons (yields_member rfl rfl ((yields_string _ field.label).map _)) ?_
  refine .cons (yields_member rfl rfl ((yields_variant field.type.ofName?_name _).map _)) ?_
  refine .cons (yields_member rfl rfl (operators.map _)) ?_
  refine .cons (yields_member rfl rfl (values.map _)) ?_
  exact .nil _

namespace Schema

/-- A schema is read back. -/
theorem yields_toJson (schema : Schema) :
    reader.Yields schema.toJson.compactChars (.ok schema) := by
  have fields : (sequence Field.reader).Yields
      (Json.array (schema.fields.map Field.toJson)).compactChars (.ok schema.fields) :=
    yields_sequence (fun field _ => field.yields_toJson) fun _ _ => opens_object _
  refine yields_record "Metadata" (some schema.fields) ?_ rfl
  exact .cons (yields_member rfl rfl (fields.map _)) (.nil _)

theorem parse_compact (schema : Schema) : parse schema.toJson.compact = .ok schema := by
  rw [parse, compact, String.toList_ofList]
  exact readDocument_of_yields schema.yields_toJson

/-- Every schema is read back from its compact text.  So reading a schema text, writing the schema
and reading it again comes to what reading the text came to. -/
theorem parse_toJson (schema : Schema) :
    parse schema.toJson.compact = .ok schema ∧
      ∀ text, ((parse text).bind fun read => parse read.toJson.compact) = parse text := by
  refine ⟨schema.parse_compact, fun text => ?_⟩
  cases parse text with
  | error error => rfl
  | ok read => exact read.parse_compact

end Schema

end FilterQuery
