import FilterQuery.Proofs.Expression.Condition
import FilterQuery.Proofs.Lexicon.Operand

/-!
# What a rendered expression reads back as

The text grammar joins two conditions at a time and nests to the right, it has no group around a
single condition for itself, and a list of one value looks like the value.  The normal form of an
expression differs from it in just that.  What an expression has to be like to be read back is asked
of its conditions, each in its place: with the text that stands behind it in the rendering.
-/

namespace FilterQuery

/-! ## Normal forms -/

/-- A list of one value is the value. -/
def Value.norm : Value → Value
  | list [value] => value
  | value => value

/-- A condition whose operand is no list of one value. -/
def Condition.norm (test : Condition) : Condition :=
  { test with value := test.value.norm }

namespace Expression

mutual

/-- An expression whose connectives join two expressions each, nested to the right. -/
def norm : Expression → Expression
  | condition test => condition test.norm
  | logic connective children => normAmong connective children

/-- The children of a connective joined two at a time. -/
def normAmong (connective : Logic) : List Expression → Expression
  | [] => logic connective []
  | child :: rest =>
      if rest.isEmpty then child.norm else logic connective [child.norm, normAmong connective rest]

end

end Expression

/-! ## Places -/

/-- A condition in the text of an expression, with the text behind it. -/
structure Place where
  test : Condition
  behind : String

namespace Expression

/-- What stands behind the text of an expression that is a child. -/
def closing : Expression → String
  | condition _ => ""
  | logic _ _ => ")"

/-- An expression as a child: a connective stands in parentheses. -/
def wrapped : Expression → String
  | condition test => test.display
  | logic connective children => "(" ++ display (logic connective children) ++ ")"

/-- What stands behind a child of a connective, with the children behind it and what stands behind
all of them. -/
def following (connective : Logic) (rest : List Expression) (behind : String) : String :=
  if rest.isEmpty then behind
  else connective.joiner ++ ((logic connective rest).display ++ behind)

mutual

/-- The conditions of an expression in reading order, with what stands behind each of them when the
expression is written in front of a text. -/
def places : Expression → String → List Place
  | condition test, behind => [⟨test, behind⟩]
  | logic connective children, behind => placesAmong connective children behind

/-- The conditions of the children of a connective. -/
def placesAmong (connective : Logic) : List Expression → String → List Place
  | [], _ => []
  | child :: rest, behind =>
      child.places (child.closing ++ following connective rest behind) ++
        placesAmong connective rest behind

end

theorem displayEach_cons (child : Expression) (rest : List Expression) :
    displayEach (child :: rest) = child.wrapped :: displayEach rest := by
  cases child <;> rfl

theorem display_logic_singleton (connective : Logic) (child : Expression) :
    (logic connective [child]).display = child.wrapped := by
  rw [display, displayEach_cons, displayEach, String.intercalate_singleton]

theorem display_logic_cons_cons (connective : Logic) (child next : Expression)
    (others : List Expression) :
    (logic connective (child :: next :: others)).display =
      child.wrapped ++ (connective.joiner ++ (logic connective (next :: others)).display) := by
  rw [display, displayEach_cons, String.intercalate_cons_of_ne_nil (by simp [displayEach_cons]),
    display, String.append_assoc]

/-- A connective is written as its first child and what stands behind that. -/
theorem display_logic_cons (connective : Logic) (child : Expression) (rest : List Expression)
    (behind : String) :
    (logic connective (child :: rest)).display ++ behind =
      child.wrapped ++ following connective rest behind := by
  cases rest with
  | nil =>
      rw [display_logic_singleton]
      rfl
  | cons next more =>
      rw [display_logic_cons_cons, following, List.isEmpty_cons, if_neg Bool.false_ne_true]
      simp only [String.append_assoc]

theorem wrapped_eq (child : Expression) :
    ∃ opening, child.wrapped = opening ++ (child.display ++ child.closing) := by
  cases child with
  | condition test => exact ⟨"", by simp [wrapped, display, closing]⟩
  | logic connective children => exact ⟨"(", by simp [wrapped, closing, String.append_assoc]⟩

mutual

/-- The places of an expression are found in its text. -/
theorem exists_of_mem_places {expression : Expression} {behind : String} {place : Place}
    (member : place ∈ expression.places behind) :
    ∃ before, expression.display ++ behind = before ++ (place.test.display ++ place.behind) := by
  cases expression with
  | condition test =>
      rw [places, List.mem_singleton] at member
      exact ⟨"", by simp [member, display]⟩
  | logic connective children => exact exists_of_mem_placesAmong member

theorem exists_of_mem_placesAmong {connective : Logic} {children : List Expression}
    {behind : String} {place : Place}
    (member : place ∈ placesAmong connective children behind) :
    ∃ before, (logic connective children).display ++ behind =
      before ++ (place.test.display ++ place.behind) := by
  cases children with
  | nil => contradiction
  | cons child rest =>
      rw [placesAmong, List.mem_append] at member
      rw [display_logic_cons]
      rcases member with inChild | inRest
      · obtain ⟨opening, wrapped_eq⟩ := child.wrapped_eq
        obtain ⟨before, found⟩ := exists_of_mem_places inChild
        refine ⟨opening ++ before, ?_⟩
        rw [String.append_assoc, ← found, wrapped_eq]
        simp [String.append_assoc]
      · obtain ⟨before, found⟩ := exists_of_mem_placesAmong inRest
        have several : rest.isEmpty = false := by
          cases rest with
          | nil => contradiction
          | cons _ _ => rfl
        refine ⟨child.wrapped ++ (connective.joiner ++ before), ?_⟩
        simp [following, several, found, String.append_assoc]

end

mutual

/-- Every condition of an expression has its place. -/
theorem fieldNames_eq_places (expression : Expression) (behind : String) :
    (expression.places behind).map (·.test.field) = expression.fieldNames := by
  cases expression with
  | condition test => rfl
  | logic connective children => exact fieldNamesAmong_eq_places connective children behind

theorem fieldNamesAmong_eq_places (connective : Logic) (children : List Expression)
    (behind : String) :
    (placesAmong connective children behind).map (·.test.field) = fieldNamesAmong children := by
  cases children with
  | nil => rfl
  | cons child rest =>
      rw [placesAmong, List.map_append, fieldNamesAmong, fieldNames_eq_places child,
        fieldNamesAmong_eq_places connective rest behind]

end

end Expression

/-! ## What can be read back -/

/-- No lookup of a field is named like a value, as it is shown or as it is written. -/
def Field.Spares (field : Field) (value : Value) : Prop :=
  ∀ lookup ∈ field.values, sameCaseless lookup.name value.display = false ∧
    sameCaseless lookup.name value.operandText = false

instance (field : Field) (value : Value) : Decidable (field.Spares value) :=
  inferInstanceAs (Decidable (∀ lookup ∈ field.values,
    sameCaseless lookup.name value.display = false ∧
      sameCaseless lookup.name value.operandText = false))

/-- A name leads a condition to a field when the field has the name and type of the condition,
allows its operator, and has no lookup for its operands.  By `Condition.Fits`, all but the last
holds of the field that the condition was compiled against. -/
structure Condition.LeadsTo (test : Condition) (field : Field) : Prop where
  name_eq : field.name = test.field
  type_eq : field.type = test.type
  allows : field.allows test.operator = true
  spares : test.operator.isComparer = true → ∀ value ∈ test.value.operands, field.Spares value

/-- What a condition has to be like to be read back from its place in a text query. -/
structure Place.ReadsBack (schema : Schema) (place : Place) : Prop where
  absent : place.test.operator.isPresence = true → place.test.value = .emptyText
  plain : ∀ value ∈ place.test.value.operands, value.isPlain = true
  resolves : ∃ field, schema.field? place.test.field = some field ∧ place.test.LeadsTo field
  named : schema.find? (place.test.display ++ place.behind) = some (.field, place.test.field) ∨
    schema.find? (place.test.display ++ place.behind) = some (.literal, place.test.field)

end FilterQuery
