import Mathlib.Data.List.Basic
import FilterQuery.Proofs.Node.ArrayForm
import FilterQuery.Query.Check

/-!
# Validating and compiling array queries

A query in the array grammar is valid exactly when it compiles.  When it does not, validation and
compilation stop at the same place: at the same fault in its structure, or else at the same token,
and then the error in compiling tells the slot in which that token stands.
-/

namespace FilterQuery

theorem Slot.fault_inj {slot other : Slot} {text content : String} :
    slot.fault text = other.fault content ↔ slot = other ∧ text = content := by
  cases slot <;> cases other <;> simp [fault]

theorem Slot.fault_ne_malformed (slot : Slot) (text : String) (cause : StructureError) :
    slot.fault text ≠ .malformed cause := by
  cases slot <;> simp [fault]

theorem validateNode_eq_of_firstFault? (node : Node) :
    validateNode (some node) =
      match firstFault? node.slots with
      | some (_, token) => .error (.invalidToken token.raw)
      | none => .ok () := by
  rw [validateNode, node.invalid?_eq_firstFault?]
  cases firstFault? node.slots <;> rfl

namespace Schema

variable {schema : Schema} {query : String}

/-- A query whose structure is at fault is neither valid nor compiled. -/
theorem array_of_malformed {cause : StructureError}
    (read : schema.readArrayQuery query = .error cause) :
    schema.validateArray query = .error (.malformed cause) ∧
      schema.compileArray query = .error (.malformed cause) := by
  simp [validateArray, compileArray, read, Except.mapError, bind, Except.bind]

theorem array_of_empty (read : schema.readArrayQuery query = .ok none) :
    schema.validateArray query = .ok () ∧ schema.compileArray query = .ok none := by
  simp [validateArray, compileArray, read, Except.mapError, bind, Except.bind, validateNode,
    compileNode]

theorem filled_of_readArrayQuery {node : Node}
    (read : schema.readArrayQuery query = .ok (some node)) : node.Filled schema := by
  unfold readArrayQuery at read
  split at read
  · contradiction
  · exact Node.filled_of_ofQuery read

/-- A query that is read to a tree is judged by the first faulty slot of the tree. -/
theorem array_of_tree {node : Node} (read : schema.readArrayQuery query = .ok (some node)) :
    match firstFault? node.slots with
    | some (slot, token) =>
        schema.validateArray query = .error (.invalidToken token.raw) ∧
          schema.compileArray query = .error (slot.fault token.raw)
    | none =>
        schema.validateArray query = .ok () ∧
          ∃ expression, schema.compileArray query = .ok (some expression) := by
  have validated : schema.validateArray query = validateNode (some node) := by
    simp [validateArray, read, Except.mapError, bind, Except.bind]
  have compiled : schema.compileArray query = (Expression.ofNode schema node).map some := by
    simp [compileArray, read, Except.mapError, bind, Except.bind, compileNode]
  have reports := Expression.reportsOn_ofNode (filled_of_readArrayQuery read)
  rw [validateNode_eq_of_firstFault?] at validated
  unfold ReportsOn at reports
  split <;> rename_i found <;> rw [found] at validated reports
  · refine ⟨validated, ?_⟩
    rw [compiled, reports]
    rfl
  · rcases reports with ⟨expression, built⟩
    refine ⟨validated, expression, ?_⟩
    rw [compiled, built]
    rfl

/-- Validation and compilation of an array query agree on what they accept, on every fault of
structure and on the text of the first invalid token, whose slot decides the error. -/
theorem validateArray_agrees_with_compileArray (schema : Schema) (query : String) :
    (schema.validateArray query = .ok () ↔
        ∃ result, schema.compileArray query = .ok result) ∧
      (∀ cause, schema.validateArray query = .error (.malformed cause) ↔
        schema.compileArray query = .error (.malformed cause)) ∧
      (∀ text, schema.validateArray query = .error (.invalidToken text) ↔
        ∃ slot : Slot, schema.compileArray query = .error (slot.fault text)) ∧
      (∀ (slot : Slot) text, schema.compileArray query = .error (slot.fault text) ↔
        ∃ node token, schema.readArrayQuery query = .ok (some node) ∧
          node.invalid? = some token ∧ firstFault? node.slots = some (slot, token) ∧
          token.raw = text) ∧
      ((∃ result, schema.compileArray query = .ok result) ∨
        (∃ cause, schema.compileArray query = .error (.malformed cause)) ∨
        ∃ (slot : Slot) (text : String),
          schema.compileArray query = .error (slot.fault text)) := by
  cases read : schema.readArrayQuery query with
  | error cause =>
      obtain ⟨validated, compiled⟩ := array_of_malformed read
      have slotless (slot : Slot) (text : String) := (slot.fault_ne_malformed text cause).symm
      simp [validated, compiled, slotless]
  | ok tree =>
      cases tree with
      | none =>
          obtain ⟨validated, compiled⟩ := array_of_empty read
          simp [validated, compiled]
      | some node =>
          have judged := array_of_tree read
          have invalid := node.invalid?_eq_firstFault?
          cases found : firstFault? node.slots with
          | none =>
              rw [found] at judged
              rcases judged with ⟨validated, expression, compiled⟩
              simp [validated, compiled, found]
          | some place =>
              rcases place with ⟨slot, token⟩
              rw [found] at judged invalid
              rcases judged with ⟨validated, compiled⟩
              have structural (cause : StructureError) := slot.fault_ne_malformed token.raw cause
              simp [validated, compiled, found, invalid, Slot.fault_inj, structural]

end Schema

end FilterQuery
