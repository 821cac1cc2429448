import FilterQuery.Expression.ArrayForm
import FilterQuery.Proofs.Json.Nesting

/-!
# How deep an expression is written

As an array query a condition is one level deep, or two with a list, and a connective adds two
levels to those of its deepest child.  So a chain of conditions, each the last child of the one
before, goes down by two levels with every condition.
-/

namespace FilterQuery

namespace Value

mutual

/-- The nesting of lists in a value. -/
def nesting : Value → Nat
  | list values => nestingAmong values + 1
  | _ => 0

/-- The deepest nesting among some values. -/
def nestingAmong : List Value → Nat
  | [] => 0
  | value :: rest => max value.nesting (nestingAmong rest)

end

mutual

/-- A value is written plainly, with an array for every list. -/
theorem plain_toJson (value : Value) :
    value.toJson.Plain ∧ value.toJson.nesting = value.nesting := by
  cases value with
  | text content => exact ⟨.string _, rfl⟩
  | number amount =>
      cases amount with
      | finite negative magnitude => exact ⟨.float negative magnitude, rfl⟩
      | nan | infinite _ => exact ⟨.null, rfl⟩
  | boolean truth => exact ⟨.boolean truth, rfl⟩
  | date _ | dateTime _ | time _ => exact ⟨.string _, rfl⟩
  | list values =>
      obtain ⟨each, deep⟩ := plain_toJsonEach values
      rw [toJson, Json.nesting, nesting, deep]
      exact ⟨.array each, rfl⟩

theorem plain_toJsonEach (values : List Value) :
    (∀ item ∈ toJsonEach values, item.Plain) ∧
      Json.nestingAmong (toJsonEach values) = nestingAmong values := by
  cases values with
  | nil => exact ⟨fun _ => List.not_mem_nil.elim, rfl⟩
  | cons value rest =>
      obtain ⟨first, deep⟩ := plain_toJson value
      obtain ⟨each, deepRest⟩ := plain_toJsonEach rest
      rw [toJsonEach, Json.nestingAmong, nestingAmong, deep, deepRest]
      exact ⟨List.forall_mem_cons.mpr ⟨first, each⟩, rfl⟩

end

end Value

namespace Expression

mutual

/-- The nesting of arrays in an expression that is written as an array query. -/
def nesting : Expression → Nat
  | condition test => test.value.nesting + 1
  | logic _ children => nestingAmong children + 2

/-- The deepest nesting among some expressions. -/
def nestingAmong : List Expression → Nat
  | [] => 0
  | child :: rest => max child.nesting (nestingAmong rest)

end

mutual

/-- An expression is written plainly and as deep as it is nested. -/
theorem plain_toJson (expression : Expression) :
    expression.toJson.Plain ∧ expression.toJson.nesting = expression.nesting := by
  cases expression with
  | condition test =>
      obtain ⟨operand, deep⟩ := test.value.plain_toJson
      rw [toJson, Condition.toJson, nesting, ← deep]
      refine ⟨.array ?_, ?_⟩
      · simp [Json.Plain.string, operand]
      · simp [Json.nesting, Json.nestingAmong]
  | logic connective children =>
      obtain ⟨each, deep⟩ := plain_toJsonEach children
      rw [toJson, nesting, ← deep]
      refine ⟨.array ?_, ?_⟩
      · simp [Json.Plain.string, Json.Plain.array each]
      · simp [Json.nesting, Json.nestingAmong]

theorem plain_toJsonEach (expressions : List Expression) :
    (∀ item ∈ toJsonEach expressions, item.Plain) ∧
      Json.nestingAmong (toJsonEach expressions) = nestingAmong expressions := by
  cases expressions with
  | nil => exact ⟨fun _ => List.not_mem_nil.elim, rfl⟩
  | cons expression rest =>
      obtain ⟨first, deep⟩ := plain_toJson expression
      obtain ⟨each, deepRest⟩ := plain_toJsonEach rest
      rw [toJsonEach, Json.nestingAmong, nestingAmong, deep, deepRest]
      exact ⟨List.forall_mem_cons.mpr ⟨first, each⟩, rfl⟩

end

theorem nesting_pos (expression : Expression) : 0 < expression.nesting := by
  cases expression <;> exact Nat.succ_pos _

/-- Expressions in a row, each joined with all of those behind it. -/
def chain (connective : Logic) (expression : Expression) : List Expression → Expression
  | [] => expression
  | next :: others => logic connective [expression, chain connective next others]

variable {connective : Logic} {expression : Expression} {others : List Expression}

/-- A chain goes down by two levels with every link. -/
theorem length_lt_nesting_chain :
    2 * others.length < (chain connective expression others).nesting := by
  induction others generalizing expression with
  | nil => exact expression.nesting_pos
  | cons next others ih =>
      have deeper := @ih next
      simp only [chain, nesting, nestingAmong, List.length_cons]
      omega

/-- A chain of conditions without lists goes down no further. -/
theorem nesting_chain_of_flat (flat : ∀ link ∈ expression :: others, link.nesting = 1) :
    (chain connective expression others).nesting = 2 * others.length + 1 := by
  induction others generalizing expression with
  | nil => exact flat expression List.mem_cons_self
  | cons next others ih =>
      rcases List.forall_mem_cons.mp flat with ⟨first, behind⟩
      simp only [chain, nesting, nestingAmong, first, ih behind, List.length_cons]
      omega

end Expression

end FilterQuery
