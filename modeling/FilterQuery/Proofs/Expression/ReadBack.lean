import FilterQuery.Proofs.Expression.Condition
import FilterQuery.Proofs.Outcome
import FilterQuery.Proofs.Query.TextAgreement

/-!
# Expressions read back

An expression that was compiled from a query of either grammar is written as an array query that
compiles to the same expression.  Every tree that compiles is typed, whichever grammar it comes
from, so reading back goes by induction over typed trees and asks something of their leaves alone.
-/

namespace FilterQuery

/-- A leaf of a tree. -/
structure Leaf where
  subject : Token
  relation : Token
  operand : Operand

namespace Node

mutual

/-- The leaves of a tree in reading order. -/
def leaves : Node → List Leaf
  | leaf subject relation operand => [⟨subject, relation, operand⟩]
  | logic _ children => leavesAmong children

/-- The leaves of a list of trees. -/
def leavesAmong : List Node → List Leaf
  | [] => []
  | child :: rest => child.leaves ++ leavesAmong rest

end

end Node

/-- A leaf can be read back when its condition can, with the field that it was compiled against. -/
def Leaf.ReadsBack (schema : Schema) (leaf : Leaf) : Prop :=
  ∀ entry test, leaf.subject.toField schema = .ok entry →
    Condition.ofLeaf schema leaf.subject leaf.relation leaf.operand = .ok test →
      test.ReadsBack schema entry

/-- A query as it is given to be compiled: as a text of either grammar, or as the value of an array
query. -/
inductive Source
  | written (grammar : Grammar) (query : String)
  | value (query : Json)

namespace Source

/-- The token tree of a query, if it is not empty. -/
def tree (schema : Schema) : Source → Except ParseError (Option Node)
  | written .text query => Node.ofTokens (schema.scan query)
  | written .array query => (schema.readArrayQuery query).mapError .malformed
  | value query => (Node.ofQuery schema query).mapError .malformed

/-- The expression of a query, if it is not empty. -/
def compile (schema : Schema) : Source → Except ParseError (Option Expression)
  | written grammar query => schema.compile grammar query
  | value query => schema.compileJson query

/-- Whatever a query is written in, its tree is what is compiled. -/
theorem compile_eq_bind (schema : Schema) (source : Source) :
    source.compile schema = (source.tree schema).bind schema.compileNode := by
  cases source with
  | written grammar query => cases grammar <;> rfl
  | value query => rfl

end Source

theorem TokenKind.toLogic_ne_unknown {kind : TokenKind} (isLogic : kind.isLogic = true) :
    kind.toLogic ≠ .unknown := by
  cases kind with
  | and | or => exact Logic.noConfusion
  | _ => contradiction

namespace Expression

variable {schema : Schema}

/-- A connective compiles to what its token stands for and what its children compile to. -/
theorem ofNode_logic_eq_ok {connective : Token} {children : List Node} {expression : Expression}
    (isLogic : connective.kind.isLogic = true)
    (compiled : ofNode schema (.logic connective children) = .ok expression) :
    ∃ parts, ofNodes schema children = .ok parts ∧
      expression = .logic connective.kind.toLogic parts := by
  rw [ofNode, Token.toLogic_of_isLogic isLogic] at compiled
  cases each : ofNodes schema children with
  | error error => simp [each, bind, Except.bind] at compiled
  | ok parts =>
      simp only [each, bind, Except.bind, pure, Except.pure, Except.ok.injEq] at compiled
      exact ⟨parts, rfl, compiled.symm⟩

/-- The trees of a list compile one by one. -/
theorem ofNodes_cons_eq_ok_iff {child : Node} {rest : List Node} {expressions : List Expression} :
    ofNodes schema (child :: rest) = .ok expressions ↔
      ∃ first others, ofNode schema child = .ok first ∧ ofNodes schema rest = .ok others ∧
        expressions = first :: others := by
  rw [ofNodes]
  cases ofNode schema child with
  | error error => simp [bind, Except.bind]
  | ok first =>
      cases ofNodes schema rest with
      | error error => simp [bind, Except.bind]
      | ok others => simp [bind, Except.bind, pure, Except.pure, eq_comm]

/-- An expression is read back when its array is read to a tree that compiles to it. -/
def IsReadBack (schema : Schema) (expression : Expression) : Prop :=
  ∃ node, Node.ofJson schema expression.toJson = .ok node ∧
    ofNode schema node = .ok expression

/-- A list of expressions is read back when each of them is. -/
theorem isReadBack_each {expressions : List Expression}
    (each : ∀ expression ∈ expressions, expression.IsReadBack schema) :
    ∃ nodes, Node.ofJsonEach schema (toJsonEach expressions) = .ok nodes ∧
      ofNodes schema nodes = .ok expressions := by
  induction expressions with
  | nil => exact ⟨[], rfl, rfl⟩
  | cons expression rest ih =>
      rcases List.forall_mem_cons.mp each with ⟨⟨node, read, compiled⟩, restReadBack⟩
      obtain ⟨nodes, readRest, compiledRest⟩ := ih restReadBack
      exact ⟨node :: nodes,
        Node.ofJsonEach_cons_eq_ok_iff.mpr ⟨node, nodes, read, readRest, rfl⟩,
        ofNodes_cons_eq_ok_iff.mpr ⟨expression, rest, compiled, compiledRest, rfl⟩⟩

/-- The name of a connective stands for the connective. -/
theorem ofConnective_name {connective : Logic} (known : connective ≠ .unknown) :
    (Token.ofConnective connective.name).kind.isLogic = true ∧
      (Token.ofConnective connective.name).kind.toLogic = connective := by
  cases connective with
  | and => decide
  | or => decide
  | unknown => contradiction

theorem isReadBack_logic {connective : Logic} (known : connective ≠ .unknown)
    {children : List Expression} (nonempty : children ≠ [])
    (each : ∀ child ∈ children, child.IsReadBack schema) :
    (logic connective children).IsReadBack schema := by
  obtain ⟨nodes, read, compiled⟩ := isReadBack_each each
  obtain ⟨isLogic, toLogic_eq⟩ := ofConnective_name known
  refine ⟨.logic (Token.ofConnective connective.name) nodes, ?_, ?_⟩
  · cases children with
    | nil => contradiction
    | cons first rest =>
        rw [toJsonEach] at read
        rw [toJson, toJsonEach, Node.ofJson]
        simp only [Json.stringContent, bind, Except.bind, read]
        rfl
  · rw [ofNode, Token.toLogic_of_isLogic isLogic, toLogic_eq, compiled]
    rfl

/-- The expressions of typed trees are read back one by one. -/
theorem isReadBack_of_ofNodes {nodes : List Node} {expressions : List Expression}
    (compiled : ofNodes schema nodes = .ok expressions)
    (readable : ∀ leaf ∈ Node.leavesAmong nodes, leaf.ReadsBack schema)
    (each : ∀ node ∈ nodes, ∀ expression, ofNode schema node = .ok expression →
      (∀ leaf ∈ node.leaves, leaf.ReadsBack schema) → expression.IsReadBack schema) :
    ∀ expression ∈ expressions, expression.IsReadBack schema := by
  induction nodes generalizing expressions with
  | nil =>
      cases compiled
      simp
  | cons node rest ih =>
      rcases ofNodes_cons_eq_ok_iff.mp compiled with
        ⟨first, others, compiledFirst, compiledRest, rfl⟩
      rcases List.forall_mem_append.mp readable with ⟨firstReadable, restReadable⟩
      rcases List.forall_mem_cons.mp each with ⟨firstBack, restBack⟩
      exact List.forall_mem_cons.mpr ⟨firstBack first compiledFirst firstReadable,
        ih compiledRest restReadable restBack⟩

/-- The expression of a typed tree is read back when the conditions of its leaves can be. -/
theorem isReadBack_of_typed (avoids : schema.NamesAvoidDigits) {node : Node}
    (typed : node.Typed schema) {expression : Expression}
    (compiled : ofNode schema node = .ok expression)
    (readable : ∀ leaf ∈ node.leaves, leaf.ReadsBack schema) :
    expression.IsReadBack schema := by
  induction typed generalizing expression with
  | leaf entry names asks fits =>
      have test_eq := Condition.ofLeaf_eq names asks.1 (fits.isValue asks)
      rw [ofNode, test_eq] at compiled
      cases compiled
      have reads := readable _ List.mem_cons_self entry _ names.toField_eq test_eq
      exact Condition.ofJson_toJson (Condition.fits_of_typed asks fits) reads avoids
  | logic isLogic nonempty typed ih =>
      obtain ⟨parts, compiledParts, rfl⟩ := ofNode_logic_eq_ok isLogic compiled
      apply isReadBack_logic (TokenKind.toLogic_ne_unknown isLogic)
      · rintro rfl
        obtain ⟨first, rest, rfl⟩ := List.exists_cons_of_ne_nil nonempty
        rcases ofNodes_cons_eq_ok_iff.mp compiledParts with ⟨_, _, _, _, impossible⟩
        contradiction
      · exact isReadBack_of_ofNodes compiledParts readable fun child member _ compiledChild =>
          ih child member compiledChild

end Expression

namespace Source

variable {schema : Schema} {source : Source} {node : Node} {expression : Expression}

/-- Every tree that compiles is typed, whichever grammar it comes from. -/
theorem typed_of_tree (read : source.tree schema = .ok (some node))
    (compiled : Expression.ofNode schema node = .ok expression) : node.Typed schema := by
  cases source with
  | written grammar query =>
      cases grammar with
      | text => exact Schema.typed_of_ofTokens (schema.run_scanFrom Context.start query.toList) read
      | array =>
          have readQuery := mapError_eq_ok_iff.mp read
          unfold Schema.readArrayQuery at readQuery
          split at readQuery
          · contradiction
          · exact Node.typed_of_ofQuery readQuery compiled
  | value query => exact Node.typed_of_ofQuery (mapError_eq_ok_iff.mp read) compiled

/-- An expression that was compiled from a query is written as an array query that compiles to the
same expression, if each of its conditions can be read back and no name begins with a digit. -/
theorem compileJson_toJson (avoids : schema.NamesAvoidDigits)
    (compiled : source.compile schema = .ok (some expression))
    (read : source.tree schema = .ok (some node))
    (readable : ∀ leaf ∈ node.leaves, leaf.ReadsBack schema) :
    schema.compileJson expression.toJson = .ok (some expression) := by
  have compiledNode : Expression.ofNode schema node = .ok expression := by
    rw [compile_eq_bind, read] at compiled
    cases each : Expression.ofNode schema node with
    | error error => simp [Except.bind, Schema.compileNode, each, Except.map] at compiled
    | ok result => simpa [Except.bind, Schema.compileNode, each, Except.map] using compiled
  rcases Expression.isReadBack_of_typed avoids (typed_of_tree read compiledNode) compiledNode
    readable with ⟨again, readAgain, compiledAgain⟩
  have query := Node.ofQuery_eq_ok_some_iff.mpr readAgain
  rw [Schema.compileJson, query]
  simp [Except.mapError, bind, Except.bind, Schema.compileNode, compiledAgain, Except.map]

/-- The titles of trips, of which one has a name. -/
def tripTitle : Field :=
  ⟨"title", "Trip Title", .single .string, [.compare .equal, .compare .anyOf], [⟨"new", "draft"⟩]⟩

/-- The first days of trips. -/
def tripStart : Field :=
  ⟨"start", "", .single .date, [.compare .lessThan, .presence .blank], []⟩

def tripSchema : Schema :=
  ⟨[tripTitle, tripStart]⟩

/-- A query with a keyword and a lookup in a list, a label and a leap day. -/
def tripQuery : Source :=
  .value (.array [.string "or", .array
    [.array [.string "trip title", .string "in", .array [.string "\"and\"", .string "New"]],
      .array [.string "start", .string "<", .string "2024-02-29"]]])

def tripDay : Value :=
  .date ⟨2024, 2, 29, by decide, by decide, by decide⟩

def tripLeaves : List Leaf :=
  [⟨Token.ofText .field "title", Token.ofText (.comparer .anyOf) "in",
      .list [⟨.value .string, .text "and"⟩, ⟨.value .string, .text "draft"⟩]⟩,
    ⟨Token.ofText .field "start", Token.ofText (.comparer .lessThan) "<",
      .single ⟨.value .date, tripDay⟩⟩]

def tripNode : Node :=
  .logic (Token.ofText .or "or")
    (tripLeaves.map fun leaf => .leaf leaf.subject leaf.relation leaf.operand)

def tripTests : List Condition :=
  [⟨.single .string, "title", .compare .anyOf, .list [.text "and", .text "draft"]⟩,
    ⟨.single .date, "start", .compare .lessThan, tripDay⟩]

def tripExpression : Expression :=
  .logic .or (tripTests.map .condition)

theorem compileJson_toJson_trip :
    tripSchema.NamesAvoidDigits ∧
      tripQuery.compile tripSchema = .ok (some tripExpression) ∧
      tripQuery.tree tripSchema = .ok (some tripNode) ∧
      (∀ leaf ∈ tripNode.leaves, leaf.ReadsBack tripSchema) ∧
      tripSchema.compileJson tripExpression.toJson = .ok (some tripExpression) := by
  have avoids : tripSchema.NamesAvoidDigits := by
    unfold Schema.NamesAvoidDigits
    decide
  have compiled : tripQuery.compile tripSchema = .ok (some tripExpression) := rfl
  have read : tripQuery.tree tripSchema = .ok (some tripNode) := rfl
  have readable : ∀ leaf ∈ tripNode.leaves, leaf.ReadsBack tripSchema := by
    have leaves : tripNode.leaves = tripLeaves := rfl
    rw [leaves, tripLeaves, List.forall_mem_cons, List.forall_mem_singleton]
    constructor
    · intro entry test named meant
      cases named
      cases meant
      refine ⟨by decide, Bool.noConfusion, ⟨tripTitle, rfl, ⟨rfl, rfl, rfl, rfl⟩⟩, ?_, ?_⟩
      · decide
      · unfold Field.Unshadowed
        decide
    · intro entry test named meant
      cases named
      cases meant
      refine ⟨by decide, Bool.noConfusion, ⟨tripStart, rfl, ⟨rfl, rfl, rfl, rfl⟩⟩, ?_, ?_⟩
      · decide
      · unfold Field.Unshadowed
        decide
  exact ⟨avoids, compiled, read, readable, compileJson_toJson avoids compiled read readable⟩

end Source

end FilterQuery
