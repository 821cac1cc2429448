import FilterQuery.Proofs.Expression.Nesting
import FilterQuery.Proofs.Query.DisplayReading

/-!
# Expressions too deep to be read

An expression is written as an array query that is read as JSON exactly if it is not nested deeper
than the reader goes.  Text queries are not bounded like that: every chain of queries compiles, and
each link of it adds two levels.
-/

namespace FilterQuery

/-! ## Failing for the text or for the structure -/

/-- What fails for the structure of a JSON value does not fail for its text. -/
def Structural {α : Type} (outcome : Except StructureError α) : Prop :=
  ∀ error, outcome ≠ .error (.json error)

namespace Structural

variable {α β : Type} {outcome : Except StructureError α}

theorem ok (a : α) : Structural (.ok a) := by
  rintro error ⟨⟩

theorem bind (structural : Structural outcome) {next : α → Except StructureError β}
    (each : ∀ a, Structural (next a)) : Structural (outcome >>= next) := by
  cases outcome with
  | error cause =>
      rintro error ⟨⟩
      exact structural error rfl
  | ok a => exact each a

theorem map (structural : Structural outcome) (change : α → β) :
    Structural (outcome.map change) := by
  cases outcome with
  | error cause =>
      rintro error ⟨⟩
      exact structural error rfl
  | ok a => exact ok (change a)

end Structural

theorem Json.structural_stringContent (value : Json) : Structural value.stringContent := by
  cases value <;> rintro error ⟨⟩

theorem Json.structural_scalarText (value : Json) : Structural value.scalarText := by
  cases value <;> rintro error ⟨⟩

namespace Schema

variable (schema : Schema)

theorem structural_operandTokens (context : Context) (values : List Json) :
    Structural (schema.operandTokens context values) := by
  induction values generalizing context with
  | nil => exact .ok []
  | cons value rest ih =>
      rw [operandTokens]
      exact value.structural_scalarText.bind fun text => (ih _).bind fun _ => .ok _

theorem structural_arrayOperand (context : Context) (value : Json) :
    Structural (schema.arrayOperand context value) := by
  unfold arrayOperand
  split
  · rintro error ⟨⟩
  · exact (schema.structural_operandTokens context _).map Operand.list
  · exact value.structural_scalarText.map _

theorem structural_arrayLeaf (field operator operand : Json) :
    Structural (schema.arrayLeaf field operator operand) :=
  field.structural_stringContent.bind fun _ => operator.structural_stringContent.bind fun _ =>
    (schema.structural_arrayOperand _ operand).bind fun _ => .ok _

end Schema

namespace Node

mutual

/-- A value that is JSON already is refused for its structure only. -/
theorem structural_ofJson (schema : Schema) (value : Json) : Structural (ofJson schema value) := by
  unfold ofJson
  split
  · exact schema.structural_arrayLeaf _ _ _
  · next connective children =>
      refine connective.structural_stringContent.bind fun keyword => ?_
      split
      · rintro error ⟨⟩
      · next first rest => exact (structural_ofJsonEach schema (first :: rest)).bind fun _ => .ok _
      · rintro error ⟨⟩
  · rintro error ⟨⟩
  · rintro error ⟨⟩

theorem structural_ofJsonEach (schema : Schema) (values : List Json) :
    Structural (ofJsonEach schema values) := by
  cases values with
  | nil => exact .ok []
  | cons value rest =>
      rw [ofJsonEach]
      exact (structural_ofJson schema value).bind fun _ =>
        (structural_ofJsonEach schema rest).bind fun _ => .ok _

end

theorem structural_ofQuery (schema : Schema) (value : Json) :
    Structural (ofQuery schema value) := by
  unfold ofQuery
  split
  · exact .ok none
  · exact (structural_ofJson schema value).map some

end Node

/-! ## Chains of text queries -/

/-- Text queries in parentheses, one behind the other with a connective in between. -/
def chainText (connective : Logic) (query : String) : List String → String
  | [] => "(" ++ query ++ ")"
  | next :: others => "(" ++ query ++ ")" ++ (connective.joiner ++ chainText connective next others)

namespace Schema

variable {schema : Schema}

/-- A text that is read as an expression from the start compiles to it. -/
theorem compileText_of_reads {query : String} {expression : Expression}
    (reads : schema.Reads query.toList [] expression) :
    schema.compileText query = .ok (some expression) := by
  obtain ⟨sides, next, current, hasRead, read⟩ := reads _ _ Assembly.agrees_start
  obtain ⟨node, finished, meant⟩ := hasRead.means
  refine compileText_of_ofTokens ?_ meant
  rw [List.append_nil] at read
  rw [ofTokens_scan, Assembly.start, read, assemble_nil]
  exact Assembly.finish_eq_ok_some_iff.mpr ⟨node, sides, finished, List.append_nil _, rfl⟩

/-- A query that compiles is read whole in parentheses. -/
theorem readsWhole_of_compileText (avoids : schema.NamesAvoidClose) {query : String}
    {expression : Expression} (compiled : schema.compileText query = .ok (some expression))
    (behind : List Char) :
    schema.ReadsWhole ("(" ++ query ++ ")").toList behind expression := by
  obtain ⟨root, built, meant⟩ := exists_tree_of_compileText compiled
  intro context pending agrees
  obtain ⟨next, notSpace, nextAgrees, read⟩ := assemble_group avoids agrees built behind
  have text_eq : ("(" ++ query ++ ")").toList ++ behind =
      '(' :: (query.toList ++ ')' :: behind) := by
    simp
  rw [ReadsWith, text_eq]
  exact ⟨next, .node root, ⟨notSpace, nextAgrees, root, rfl, meant⟩, read⟩

/-- A chain of queries that compile compiles to the chain of what they compile to. -/
theorem compileText_chainText (avoids : schema.NamesAvoidClose) {connective : Logic}
    (known : connective ≠ .unknown) {query : String} {expression : Expression}
    (compiled : schema.compileText query = .ok (some expression)) {queries : List String}
    {expressions : List Expression}
    (each : List.Forall₂ (fun query expression =>
      schema.compileText query = .ok (some expression)) queries expressions) :
    schema.compileText (chainText connective query queries) =
      .ok (some (expression.chain connective expressions)) := by
  apply compileText_of_reads
  induction each generalizing query expression with
  | nil => exact (readsWhole_of_compileText avoids compiled []).reads
  | @cons next nextExpression queries expressions first rest ih =>
      have text_eq : (chainText connective query (next :: queries)).toList =
          ("(" ++ query ++ ")").toList ++
            (connective.joiner.toList ++ (chainText connective next queries).toList) := by
        simp [chainText]
      rw [text_eq]
      exact reads_join known (readsWhole_of_compileText avoids compiled _) (ih first)

/-! ## Reading what was written -/

/-- An expression is not read as JSON exactly if it is nested too deep. -/
theorem readArrayQuery_compact_eq_json_iff (expression : Expression)
    (error : Json.ReadError Empty) :
    schema.readArrayQuery expression.toJson.compact = .error (.json error) ↔
      error = .malformed ∧ Json.maxNesting < expression.nesting := by
  obtain ⟨plain, deep⟩ := expression.plain_toJson
  have settled := plain.settled_parse
  rw [deep] at settled
  rw [readArrayQuery]
  generalize Json.parse expression.toJson.compact = outcome at settled ⊢
  cases settled with
  | read within value =>
      simp only [Nat.not_lt.mpr within, and_false, iff_false]
      exact Node.structural_ofQuery schema value error
  | refused beyond => simp [beyond, eq_comm]

/-- An expression is read as JSON again up to a bound on its nesting.  Text queries do not keep to
the bound: any queries that compile can be joined to a chain, which is nested deeper than two levels
for every link, and exactly one level deeper if the links are conditions without lists. -/
theorem readArrayQuery_compact_nesting (schema : Schema) :
    (∀ (expression : Expression) (error : Json.ReadError Empty),
      schema.readArrayQuery expression.toJson.compact = .error (.json error) ↔
        error = .malformed ∧ Json.maxNesting < expression.nesting) ∧
    (schema.NamesAvoidClose → ∀ connective ≠ Logic.unknown, ∀ query expression,
      schema.compileText query = .ok (some expression) → ∀ queries expressions,
        List.Forall₂ (fun query expression => schema.compileText query = .ok (some expression))
          queries expressions →
        schema.compileText (chainText connective query queries) =
            .ok (some (expression.chain connective expressions)) ∧
          2 * queries.length < (expression.chain connective expressions).nesting ∧
          ((∀ link ∈ expression :: expressions, link.nesting = 1) →
            (expression.chain connective expressions).nesting = 2 * queries.length + 1)) := by
  refine ⟨readArrayQuery_compact_eq_json_iff, ?_⟩
  intro avoids connective known query expression compiled queries expressions each
  rw [each.length_eq]
  exact ⟨compileText_chainText avoids known compiled each, Expression.length_lt_nesting_chain,
    Expression.nesting_chain_of_flat⟩

/-- A field of texts that may be missing. -/
def blankSchema : Schema :=
  ⟨[⟨"x", "", .single .string, [.presence .blank], []⟩]⟩

theorem blankSchema_namesAvoidClose : blankSchema.NamesAvoidClose := by
  unfold NamesAvoidClose
  decide

theorem exists_blank :
    ∃ expression, blankSchema.compileText "x blank" = .ok (some expression) ∧
      expression.nesting = 1 := by
  obtain ⟨expression, compiled, flat⟩ := @Source.exists_of_any_compile blankSchema
    (.written .text "x blank") (·.nesting == 1) (by decide +kernel)
  exact ⟨expression, compiled, beq_iff_eq.mp flat⟩

/-- Copies of one query mean copies of what it means. -/
theorem compileText_replicate {query : String} {expression : Expression}
    (compiled : schema.compileText query = .ok (some expression)) (n : Nat) :
    List.Forall₂ (fun query expression => schema.compileText query = .ok (some expression))
      (List.replicate n query) (List.replicate n expression) := by
  induction n with
  | zero => exact .nil
  | succ n ih => exact .cons compiled ih

/-- Sixty-four conditions in a chain are read as JSON again, and sixty-five are not. -/
theorem readArrayQuery_compact_nesting_blank :
    blankSchema.NamesAvoidClose ∧
      ∃ expression, blankSchema.compileText "x blank" = .ok (some expression) ∧
        (blankSchema.compileText (chainText .and "x blank" (List.replicate 63 "x blank")) =
            .ok (some (expression.chain .and (List.replicate 63 expression))) ∧
          (expression.chain .and (List.replicate 63 expression)).nesting = 127 ∧
          ∀ error, blankSchema.readArrayQuery
            (expression.chain .and (List.replicate 63 expression)).toJson.compact ≠
              .error (.json error)) ∧
        blankSchema.compileText (chainText .and "x blank" (List.replicate 64 "x blank")) =
            .ok (some (expression.chain .and (List.replicate 64 expression))) ∧
          (expression.chain .and (List.replicate 64 expression)).nesting = 129 ∧
          blankSchema.readArrayQuery
            (expression.chain .and (List.replicate 64 expression)).toJson.compact =
              .error (.json .malformed) := by
  obtain ⟨expression, compiled, flat⟩ := exists_blank
  obtain ⟨read, chained⟩ := readArrayQuery_compact_nesting blankSchema
  -- What the chain of a number of further links compiles to, and how deep it is.
  have link (n : Nat) := chained blankSchema_namesAvoidClose .and Logic.noConfusion "x blank"
    expression compiled _ _ (compileText_replicate compiled n)
  have depth (n : Nat) :
      (expression.chain .and (List.replicate n expression)).nesting = 2 * n + 1 := by
    rw [(link n).2.2, List.length_replicate]
    exact List.forall_mem_cons.mpr ⟨flat, fun other member => by
      rw [List.eq_of_mem_replicate member, flat]⟩
  refine ⟨blankSchema_namesAvoidClose, expression, compiled,
    ⟨(link 63).1, depth 63, fun error unread => ?_⟩, (link 64).1, depth 64, ?_⟩
  · have beyond := ((read _ _).mp unread).2
    rw [depth] at beyond
    exact absurd beyond (by decide)
  · rw [read, depth]
    exact ⟨rfl, by decide⟩

/-- A chain of sixty-five conditions compiles to an expression that is not read as JSON again. -/
theorem exists_unreadable :
    ∃ expression,
      blankSchema.compileText (chainText .and "x blank" (List.replicate 64 "x blank")) =
        .ok (some expression) ∧
      blankSchema.readArrayQuery expression.toJson.compact = .error (.json .malformed) := by
  obtain ⟨expression, compiled, _⟩ := exists_blank
  have deep := @Expression.length_lt_nesting_chain .and expression (List.replicate 64 expression)
  rw [List.length_replicate] at deep
  have beyond : Json.maxNesting < 2 * 64 := by decide
  exact ⟨_, compileText_chainText blankSchema_namesAvoidClose Logic.noConfusion compiled
      (compileText_replicate compiled 64),
    (readArrayQuery_compact_eq_json_iff _ _).mpr ⟨rfl, beyond.trans deep⟩⟩

end Schema

end FilterQuery
