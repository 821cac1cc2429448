import FilterQuery.Proofs.Node.Assembly
import FilterQuery.Query.Check

/-!
# Validating and compiling text queries

A validator that only looks for invalid tokens, counts parentheses and inspects the last token
accepts exactly the text queries that compile.  It is enough because every token that the classifier
accepts can be assembled, so that only the end of a query decides between the remaining errors.
-/

namespace FilterQuery

/-- Whether a token list ends in the middle of a condition: on a field, on an operator that takes
an operand, on a separator or on a connective. -/
def endsUnfinished (tokens : List Token) : Bool :=
  (lastVisible? tokens).any (·.kind.awaitsMore)

theorem TokenKind.callsForMore_eq (kind : TokenKind) :
    kind.callsForMore = (kind.awaitsMore || kind == .openGroup) :=
  rfl

namespace Schema

variable {schema : Schema} {tokens : List Token}

/-- What a list of judged tokens is assembled to is decided by its first invalid token or else by
its end. -/
theorem ofTokens_eq (judged : Run schema Context.start tokens) :
    match firstInvalid? tokens with
    | some token => Node.ofTokens tokens = .error (.invalidToken token.raw)
    | none =>
        if endsUnfinished tokens then Node.ofTokens tokens = .error .incompleteExpression
        else if countKind .openGroup tokens = countKind .closeGroup tokens then
          ∃ tree, Node.ofTokens tokens = .ok tree ∧ ∀ root, tree = some root → root.Typed schema
        else Node.ofTokens tokens = .error .unclosedGroup := by
  have assembled := Assembly.agrees_start.run judged
  cases found : firstInvalid? tokens with
  | some token =>
      rw [found] at assembled
      simp only [Node.ofTokens]
      rw [assembled]
      rfl
  | none =>
      rw [found] at assembled
      rcases assembled with ⟨final, folded, agrees⟩
      have finished := agrees.finish
      rw [Context.previous_after, Context.opened_after, Context.closed_after] at finished
      simp only [Context.start, Option.or_none, Option.any_map, Nat.zero_add] at finished
      simp only [Node.ofTokens, folded]
      exact finished

/-- A tree that is assembled from judged tokens is typed. -/
theorem typed_of_ofTokens (judged : Run schema Context.start tokens) {root : Node}
    (built : Node.ofTokens tokens = .ok (some root)) : root.Typed schema := by
  have assembled := ofTokens_eq judged
  rw [built] at assembled
  split at assembled
  · contradiction
  · split at assembled
    · contradiction
    · split at assembled
      · rcases assembled with ⟨_, same, typed⟩
        cases same
        exact typed root rfl
      · contradiction

/-- A list that ends on an opening parenthesis leaves a group open. -/
theorem unbalanced_of_last_openGroup (judged : Run schema Context.start tokens)
    (valid : firstInvalid? tokens = none) {last : Token} (isLast : lastVisible? tokens = some last)
    (opens : last.kind = .openGroup) :
    countKind .openGroup tokens ≠ countKind .closeGroup tokens := by
  have assembled := Assembly.agrees_start.run judged
  rw [valid] at assembled
  rcases assembled with ⟨final, _, agrees⟩
  have unbalanced := agrees.unbalanced_of_openGroup (by
    rw [Context.previous_after, isLast, Option.map_some, opens]
    rfl)
  rw [Context.opened_after, Context.closed_after] at unbalanced
  simpa [Context.start] using unbalanced

/-- What a text query compiles to is decided by its first invalid token or else by its end. -/
theorem compileText_eq (schema : Schema) (query : String) :
    match firstInvalid? (schema.scan query) with
    | some token => schema.compileText query = .error (.invalidToken token.raw)
    | none =>
        if endsUnfinished (schema.scan query) then
          schema.compileText query = .error .incompleteExpression
        else if countKind .openGroup (schema.scan query) =
            countKind .closeGroup (schema.scan query) then
          ∃ result, schema.compileText query = .ok result
        else schema.compileText query = .error .unclosedGroup := by
  have assembled := ofTokens_eq (schema.run_scanFrom Context.start query.toList)
  rw [← scan] at assembled
  have compiled : schema.compileText query =
      (Node.ofTokens (schema.scan query)).bind schema.compileNode := rfl
  rw [compiled]
  split
  · next token found =>
      rw [found] at assembled
      rw [assembled]
      rfl
  · next found =>
      rw [found] at assembled
      split
      · next unfinished =>
          rw [if_pos unfinished] at assembled
          rw [assembled]
          rfl
      · next finished =>
          rw [if_neg finished] at assembled
          split
          · next balanced =>
              rw [if_pos balanced] at assembled
              rcases assembled with ⟨tree, built, typed⟩
              rw [built]
              cases tree with
              | none => exact ⟨none, rfl⟩
              | some root =>
                  obtain ⟨expression, meant⟩ := (typed root rfl).compiles
                  refine ⟨some expression, ?_⟩
                  simp [Except.bind, compileNode, meant, Except.map]
          · next unbalanced =>
              rw [if_neg unbalanced] at assembled
              rw [assembled]
              rfl

/-- A text query compiles when it has no invalid token, closes what it opens and does not end in
the middle of a condition. -/
theorem compileText_eq_ok_iff (schema : Schema) (query : String) :
    (∃ result, schema.compileText query = .ok result) ↔
      firstInvalid? (schema.scan query) = none ∧ endsUnfinished (schema.scan query) = false ∧
        countKind .openGroup (schema.scan query) = countKind .closeGroup (schema.scan query) := by
  have compiled := schema.compileText_eq query
  cases found : firstInvalid? (schema.scan query) with
  | some token =>
      rw [found] at compiled
      simp [compiled]
  | none =>
      rw [found] at compiled
      by_cases unfinished : endsUnfinished (schema.scan query) = true
      · rw [if_pos unfinished] at compiled
        simp [compiled, unfinished]
      · rw [if_neg unfinished] at compiled
        rw [Bool.not_eq_true] at unfinished
        by_cases balanced : countKind .openGroup (schema.scan query) =
            countKind .closeGroup (schema.scan query)
        · rw [if_pos balanced] at compiled
          simp [compiled, unfinished, balanced]
        · rw [if_neg balanced] at compiled
          simp [compiled, balanced]

/-- A text query is valid when it has no invalid token, closes what it opens and does not end in
the middle of a condition. -/
theorem validateText_eq_ok_iff (schema : Schema) (query : String) :
    schema.validateText query = .ok () ↔
      firstInvalid? (schema.scan query) = none ∧ endsUnfinished (schema.scan query) = false ∧
        countKind .openGroup (schema.scan query) = countKind .closeGroup (schema.scan query) := by
  have unbalanced := unbalanced_of_last_openGroup (schema.run_scanFrom Context.start query.toList)
  rw [← scan] at unbalanced
  unfold validateText validateTokens
  cases found : firstInvalid? (schema.scan query) with
  | some token => simp
  | none =>
      by_cases balanced : countKind .openGroup (schema.scan query) =
          countKind .closeGroup (schema.scan query)
      · cases last : lastVisible? (schema.scan query) with
        | none => simp [balanced, validateEnd, last, endsUnfinished]
        | some token =>
            have notOpen : token.kind ≠ .openGroup := fun opens =>
              unbalanced found last opens balanced
            simp [balanced, validateEnd, last, endsUnfinished, TokenKind.callsForMore_eq, notOpen]
      · simp [balanced]

theorem validateText_eq_invalidToken_iff (schema : Schema) (query text : String) :
    schema.validateText query = .error (.invalidToken text) ↔
      ∃ token, firstInvalid? (schema.scan query) = some token ∧ token.raw = text := by
  unfold validateText validateTokens
  cases found : firstInvalid? (schema.scan query) with
  | some token => simp
  | none =>
      simp only [validateEnd]
      split
      · split
        · simp
        · split <;> simp
      · simp

/-- Validation and compilation of a text query agree on what they accept and on invalid tokens.
Without invalid tokens the end of the query and its parentheses decide between the two errors that
are left. -/
theorem validateText_agrees_with_compileText (schema : Schema) (query : String) :
    (schema.validateText query = .ok () ↔ ∃ result, schema.compileText query = .ok result) ∧
      (∀ text, schema.validateText query = .error (.invalidToken text) ↔
        schema.compileText query = .error (.invalidToken text)) ∧
      (schema.compileText query = .error .incompleteExpression ↔
        firstInvalid? (schema.scan query) = none ∧
          endsUnfinished (schema.scan query) = true) ∧
      (schema.compileText query = .error .unclosedGroup ↔
        firstInvalid? (schema.scan query) = none ∧
          endsUnfinished (schema.scan query) = false ∧
          countKind .openGroup (schema.scan query) ≠
            countKind .closeGroup (schema.scan query)) ∧
      ((∃ result, schema.compileText query = .ok result) ↔
        firstInvalid? (schema.scan query) = none ∧
          endsUnfinished (schema.scan query) = false ∧
          countKind .openGroup (schema.scan query) =
            countKind .closeGroup (schema.scan query)) ∧
      ((∃ result, schema.compileText query = .ok result) ∨
        (∃ text, schema.compileText query = .error (.invalidToken text)) ∨
        schema.compileText query = .error .incompleteExpression ∨
        schema.compileText query = .error .unclosedGroup) := by
  rw [validateText_eq_ok_iff, compileText_eq_ok_iff]
  simp only [validateText_eq_invalidToken_iff]
  have compiled := schema.compileText_eq query
  cases found : firstInvalid? (schema.scan query) with
  | some token =>
      rw [found] at compiled
      simp [compiled]
  | none =>
      rw [found] at compiled
      by_cases unfinished : endsUnfinished (schema.scan query) = true
      · rw [if_pos unfinished] at compiled
        simp [compiled, unfinished]
      · rw [if_neg unfinished] at compiled
        rw [Bool.not_eq_true] at unfinished
        by_cases balanced : countKind .openGroup (schema.scan query) =
            countKind .closeGroup (schema.scan query)
        · rw [if_pos balanced] at compiled
          rcases compiled with ⟨result, compiled⟩
          simp [compiled, unfinished, balanced]
        · rw [if_neg balanced] at compiled
          simp [compiled, unfinished, balanced]

end Schema

end FilterQuery
