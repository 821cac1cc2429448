import FilterQuery.Proofs.Query.Candidates
import FilterQuery.Proofs.Token.Origin

/-!
# The pieces of a text query

How a text is cut into pieces does not depend on what they become.  So scanning is cutting first and
classifying the pieces afterwards, and every token can be kept together with the text of its piece.
A field token then has the name of the field that its text names, and an operand has the value that
the latest field takes its text for.
-/

namespace FilterQuery

namespace Schema

/-- The pieces of a text with the kinds that they suggest. -/
def pieces (schema : Schema) : List Char → List (TokenKind × String)
  | [] => []
  | first :: rest =>
      let piece := schema.piece first rest
      (piece.kind, String.ofList piece.raw) :: pieces schema ((first :: rest).drop piece.width)
termination_by text => text.length
decreasing_by
  have positive := schema.width_piece_pos first rest
  simp only [List.length_drop, List.length_cons]
  omega

/-- Scanning a text is classifying its pieces. -/
theorem scanFrom_eq_classifyEach (schema : Schema) (context : Context) (text : List Char) :
    schema.scanFrom context text = schema.classifyEach context (schema.pieces text) := by
  fun_induction schema.scanFrom context text with
  | case1 context => rw [pieces, classifyEach]
  | case2 context first rest piece remainder token classified ih =>
      rw [pieces, classifyEach, classified, ih]
  | case3 context first rest piece remainder unclassified ih =>
      rw [pieces, classifyEach, unclassified, ih]

/-- The tokens of candidates that are classified one after another, each with its text. -/
def readEach (schema : Schema) (context : Context) :
    List (TokenKind × String) → List (String × Token)
  | [] => []
  | (kind, raw) :: rest =>
      match schema.classify context kind raw with
      | some token => (raw, token) :: schema.readEach (context.push schema token) rest
      | none => schema.readEach context rest

theorem map_snd_readEach (schema : Schema) (context : Context)
    (candidates : List (TokenKind × String)) :
    (schema.readEach context candidates).map Prod.snd =
      schema.classifyEach context candidates := by
  induction candidates generalizing context with
  | nil => rfl
  | cons candidate rest ih =>
      rw [readEach, classifyEach]
      cases schema.classify context candidate.1 candidate.2 with
      | none => exact ih context
      | some token => exact congrArg (token :: ·) (ih _)

/-- The tokens of a text with the texts that they were read from. -/
def readings (schema : Schema) (text : String) : List (String × Token) :=
  schema.readEach Context.start (schema.pieces text.toList)

theorem map_snd_readings (schema : Schema) (text : String) :
    (schema.readings text).map Prod.snd = schema.scan text := by
  rw [readings, map_snd_readEach, scan, scanFrom_eq_classifyEach]

end Schema

/-- An operand is read from a text behind a field when the field takes the text for its value. -/
def Token.ReadBehind (latest : Option Field) (text : String) (token : Token) : Prop :=
  token ≠ noOperand ∧ ∃ field, latest = some field ∧ field.operand? text = some token.value

/-- How texts are read one after another behind a field: as a field that they name, as what the field
takes them for, or as themselves. -/
inductive Readings (schema : Schema) : Option Field → List (String × Token) → Prop
  | nil {latest : Option Field} : Readings schema latest []
  | field {latest : Option Field} {raw : String} {named : Field} {rest : List (String × Token)}
      (found : schema.field? raw = some named)
      (others : Readings schema (schema.field? named.name) rest) :
      Readings schema latest ((raw, .ofText .field named.name) :: rest)
  | value {field : Field} {raw : String} {value : Value} {rest : List (String × Token)}
      (means : field.operand? raw = some value) (others : Readings schema (some field) rest) :
      Readings schema (some field) ((raw, ⟨.ofFieldType field.type, value⟩) :: rest)
  | verbatim {latest : Option Field} {raw : String} {kind : TokenKind}
      {rest : List (String × Token)} (notField : kind.isField = false)
      (notValue : kind.isValue = false) (others : Readings schema latest rest) :
      Readings schema latest ((raw, .ofText kind raw) :: rest)

namespace Readings

variable {schema : Schema} {latest : Option Field} {context : Context} {raw : String}
  {rest : List (String × Token)}

theorem verbatim_of_push {kind : TokenKind} (notField : kind.isField = false)
    (notValue : kind.isValue = false)
    (others : Readings schema (context.push schema (.ofText kind raw)).field rest) :
    Readings schema context.field ((raw, .ofText kind raw) :: rest) := by
  have stays : (Token.ofText kind raw).kind ≠ .field := by
    rintro rfl
    contradiction
  rw [Context.field_push, if_neg stays] at others
  exact .verbatim notField notValue others

theorem of_fieldToken
    (others : Readings schema (context.push schema (schema.fieldToken raw)).field rest) :
    Readings schema context.field ((raw, schema.fieldToken raw) :: rest) := by
  unfold Schema.fieldToken at others ⊢
  split
  · next named found =>
      rw [found] at others
      exact .field found others
  · next missing =>
      rw [missing] at others
      exact verbatim_of_push rfl rfl others

theorem of_valueToken
    (others : Readings schema (context.push schema (context.valueToken raw)).field rest) :
    Readings schema context.field ((raw, context.valueToken raw) :: rest) := by
  rcases context.valueToken_cases raw with refused | ⟨field, value, current, _, means, read⟩
  · rw [refused] at others ⊢
    exact verbatim_of_push rfl rfl others
  · rw [read, Context.field_push, if_neg TokenKind.noConfusion, current] at others
    rw [read, current]
    exact .value means others

/-- Candidates are read behind the field of their context. -/
theorem of_readEach (schema : Schema) (context : Context)
    (candidates : List (TokenKind × String)) :
    Readings schema context.field (schema.readEach context candidates) := by
  induction candidates generalizing context with
  | nil => exact .nil
  | cons candidate rest ih =>
      obtain ⟨kind, raw⟩ := candidate
      rw [Schema.readEach]
      split
      · next token classified =>
          have others := ih (context.push schema token)
          rcases Schema.classify_cases classified with rfl | rfl | ⟨other, rfl, notField, notValue⟩
          · exact of_fieldToken others
          · exact of_valueToken others
          · exact verbatim_of_push notField notValue others
      · exact ih context

theorem of_readings (schema : Schema) (text : String) :
    Readings schema none (schema.readings text) :=
  of_readEach schema Context.start _

theorem of_field {token : Token} (isField : token.kind.isField = true)
    (read : Readings schema latest ((raw, token) :: rest)) :
    ∃ named, schema.field? raw = some named ∧ token = .ofText .field named.name ∧
      Readings schema (schema.field? named.name) rest := by
  cases read with
  | field found others => exact ⟨_, found, rfl, others⟩
  | value means others => contradiction
  | verbatim notField notValue others => exact absurd isField (by simp [Token.ofText, notField])

theorem of_value {token : Token} (isValue : token.kind.isValue = true)
    (read : Readings schema latest ((raw, token) :: rest)) :
    token.ReadBehind latest raw ∧ Readings schema latest rest := by
  cases read with
  | field found others => contradiction
  | @value field _ value _ means others =>
      refine ⟨⟨?_, field, rfl, means⟩, others⟩
      intro same
      cases congrArg Token.kind same
  | verbatim notField notValue others => exact absurd isValue (by simp [Token.ofText, notValue])

theorem of_neither {token : Token}
    (neither : token.kind.isField = false ∧ token.kind.isValue = false)
    (read : Readings schema latest ((raw, token) :: rest)) : Readings schema latest rest := by
  cases read with
  | field found others => exact absurd neither.1 Bool.noConfusion
  | value means others => exact absurd neither.2 Bool.noConfusion
  | verbatim _ _ others => exact others

/-- What stands behind some of the texts is read behind some field. -/
theorem exists_behind {front back : List (String × Token)}
    (read : Readings schema latest (front ++ back)) : ∃ later, Readings schema later back := by
  induction front generalizing latest with
  | nil => exact ⟨latest, read⟩
  | cons reading front ih =>
      cases read with
      | field _ others | value _ others | verbatim _ _ others => exact ih others

/-- Leaving out spaces changes nothing for the other texts. -/
theorem visible {readings : List (String × Token)} (read : Readings schema latest readings) :
    Readings schema latest (readings.filter (·.2.kind != .space)) := by
  induction read with
  | nil => exact .nil
  | field found _ ih => exact .field found ih
  | value means _ ih => exact .value means ih
  | @verbatim latest raw kind rest notField notValue _ ih =>
      rw [List.filter_cons]
      split
      · exact .verbatim notField notValue ih
      · exact ih

end Readings

end FilterQuery
