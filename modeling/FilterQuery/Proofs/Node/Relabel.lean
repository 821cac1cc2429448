import FilterQuery.Proofs.Node.Steps
import FilterQuery.Proofs.Outcome

/-!
# Tokens with other payloads

How tokens are assembled is decided by their kinds.  Where each token is replaced by one of the same
kind, the same tree is built, with the replaced tokens in it.
-/

namespace FilterQuery

/-- A replacement of tokens that keeps their kinds, and the token that stands for no operand. -/
structure Token.KeepsKinds (f : Token → Token) : Prop where
  kind_eq (token : Token) : (f token).kind = token.kind
  noOperand_eq : f noOperand = noOperand

section Relabel

variable (f : Token → Token)

/-- An operand with other tokens. -/
def Operand.relabel : Operand → Operand
  | single token => single (f token)
  | list tokens => list (tokens.map f)

theorem Operand.tokens_relabel (operand : Operand) :
    (operand.relabel f).tokens = operand.tokens.map f := by
  cases operand <;> rfl

namespace Node

mutual

/-- A tree with other tokens. -/
def relabel : Node → Node
  | leaf field operator operand => leaf (f field) (f operator) (operand.relabel f)
  | logic connective children => logic (f connective) (relabelEach children)

/-- A list of trees with other tokens. -/
def relabelEach : List Node → List Node
  | [] => []
  | child :: rest => child.relabel :: relabelEach rest

end

theorem relabel_join (left : Node) (connective : Token) (right : Node) :
    (left.join connective right).relabel f =
      (left.relabel f).join (f connective) (right.relabel f) := by
  simp only [join, relabel, relabelEach]

/-- A left side with other tokens. -/
def relabelSide (side : Node × Token) : Node × Token :=
  (side.1.relabel f, f side.2)

theorem relabel_joinBehind (sides : List (Node × Token)) (node : Node) :
    (node.joinBehind sides).relabel f =
      (node.relabel f).joinBehind (sides.map (relabelSide f)) := by
  induction sides generalizing node with
  | nil => rfl
  | cons side sides ih =>
      rw [joinBehind, ih, relabel_join]
      rfl

end Node

/-- A condition that is being built up, with other tokens. -/
def Partial.relabel : Partial → Partial
  | empty => empty
  | field subject => field (f subject)
  | operator subject relation => operator (f subject) (f relation)
  | leaf subject relation operand => leaf (f subject) (f relation) (operand.relabel f)
  | separated subject relation values => separated (f subject) (f relation) (values.map f)
  | node tree => node (tree.relabel f)

theorem Partial.finish_relabel {current : Partial} {tree : Option Node}
    (finished : current.finish = .ok tree) :
    (current.relabel f).finish = .ok (tree.map (Node.relabel f)) := by
  cases current with
  | empty | node _ =>
      cases finished
      rfl
  | leaf _ _ _ =>
      cases finished
      rw [relabel, finish, Option.map_some, Node.relabel]
  | field _ | operator _ _ | separated _ _ _ => contradiction

/-- What has been put aside, with other tokens. -/
def Pending.relabel : Pending → Pending
  | joined left connective => joined (left.relabel f) (f connective)
  | group => group

/-- An assembly with other tokens. -/
def Assembly.relabel (assembly : Assembly) : Assembly :=
  ⟨assembly.pending.map (Pending.relabel f), assembly.current.relabel f⟩

namespace Assembly

theorem relabel_putAside (sides : List (Node × Token)) :
    (putAside sides).map (Pending.relabel f) = putAside (sides.map (Node.relabelSide f)) := by
  simp only [putAside, List.map_map]
  rfl

variable {f} (keeps : Token.KeepsKinds f)
include keeps

theorem extend?_relabel (current : Partial) (token : Token) :
    extend? (current.relabel f) (f token) = (extend? current token).map (Partial.relabel f) := by
  cases current with
  | empty | operator _ _ | node _ =>
      simp only [Partial.relabel, extend?, keeps.kind_eq]
      first
        | rfl
        | split <;> rfl
  | field _ =>
      simp only [Partial.relabel, extend?, keeps.kind_eq]
      split
      · rfl
      · split
        · simp only [Option.map_some, Partial.relabel, Operand.relabel, keeps.noOperand_eq]
        · rfl
  | leaf _ _ operand =>
      simp only [Partial.relabel, extend?, keeps.kind_eq, Operand.tokens_relabel]
      split <;> rfl
  | separated _ _ _ =>
      simp only [Partial.relabel, extend?, keeps.kind_eq]
      split
      · simp [Partial.relabel, Operand.relabel]
      · rfl

/-- A replaced token does to an assembly of replaced tokens what it did before. -/
theorem Steps.relabel {assembly next : Assembly} {token : Token}
    (steps : Steps assembly token next) :
    Steps (assembly.relabel f) (f token) (next.relabel f) := by
  have kind_eq := keeps.kind_eq token
  cases steps with
  | space isSpace => exact .space (by rw [kind_eq, isSpace])
  | extend extended =>
      refine .extend ?_
      rw [Assembly.relabel, extend?_relabel keeps, extended, Option.map_some]
  | join isLogic finished =>
      exact .join (by rw [kind_eq, isLogic]) (Partial.finish_relabel f finished)
  | openGroup opens isEmpty =>
      exact .openGroup (by rw [kind_eq, opens]) (by rw [Assembly.relabel, isEmpty]; rfl)
  | @closeGroup node sides rest closes finished behind =>
      have behindRelabel : (assembly.relabel f).pending =
          putAside (sides.map (Node.relabelSide f)) ++
            .group :: rest.map (Pending.relabel f) := by
        rw [Assembly.relabel, behind, List.map_append, relabel_putAside]
        rfl
      have closed := Steps.closeGroup (by rw [kind_eq, closes]) (Partial.finish_relabel f finished)
        behindRelabel
      rw [← Node.relabel_joinBehind] at closed
      exact closed

theorem foldlM_relabel {tokens : List Token} {assembly final : Assembly}
    (folded : tokens.foldlM step assembly = .ok final) :
    (tokens.map f).foldlM step (assembly.relabel f) = .ok (final.relabel f) := by
  induction tokens generalizing assembly with
  | nil =>
      cases folded
      rfl
  | cons token tokens ih =>
      rw [List.foldlM_cons] at folded
      rcases bind_eq_ok_iff.mp folded with ⟨next, stepped, rest⟩
      have steps := Steps.relabel keeps (step_eq_ok_iff.mp stepped)
      rw [List.map_cons, List.foldlM_cons, step_eq_ok_iff.mpr steps]
      exact ih rest

omit keeps in
theorem finish_relabel {assembly : Assembly} {tree : Option Node}
    (finished : assembly.finish = .ok tree) :
    (assembly.relabel f).finish = .ok (tree.map (Node.relabel f)) := by
  rcases bind_eq_ok_iff.mp finished with ⟨node, ended, closed⟩
  refine bind_eq_ok_iff.mpr ⟨_, Partial.finish_relabel f ended, ?_⟩
  cases node with
  | none =>
      rcases close_none_eq_ok_iff.mp closed with ⟨nothing, rfl⟩
      exact close_none_eq_ok_iff.mpr ⟨by rw [Assembly.relabel, nothing]; rfl, rfl⟩
  | some node =>
      rcases close_eq_ok_iff.mp closed with ⟨sides, aside, rfl⟩
      refine close_eq_ok_iff.mpr ⟨sides.map (Node.relabelSide f), ?_, ?_⟩
      · rw [Assembly.relabel, aside, relabel_putAside]
      · rw [Option.map_some, Node.relabel_joinBehind]

end Assembly

/-- Replaced tokens are assembled to the tree of the replaced tokens. -/
theorem Node.ofTokens_relabel {f : Token → Token} (keeps : Token.KeepsKinds f)
    {tokens : List Token} {tree : Option Node} (built : ofTokens tokens = .ok tree) :
    ofTokens (tokens.map f) = .ok (tree.map (Node.relabel f)) := by
  rcases bind_eq_ok_iff.mp built with ⟨final, folded, finished⟩
  exact bind_eq_ok_iff.mpr
    ⟨_, Assembly.foldlM_relabel keeps folded, Assembly.finish_relabel finished⟩

end Relabel

/-! ## Judging by kinds -/

section Kinds

variable {f : Token → Token} (keeps : Token.KeepsKinds f) (tokens : List Token)
include keeps

theorem firstInvalid?_map : firstInvalid? (tokens.map f) = (firstInvalid? tokens).map f := by
  simp only [firstInvalid?, List.find?_map, Function.comp_def, Token.isInvalid, keeps.kind_eq]

theorem lastVisible?_map : lastVisible? (tokens.map f) = (lastVisible? tokens).map f := by
  simp only [lastVisible?, ← List.map_reverse, List.find?_map, Function.comp_def, keeps.kind_eq]

theorem countKind_map (kind : TokenKind) :
    countKind kind (tokens.map f) = countKind kind tokens := by
  simp only [countKind, List.countP_map, Function.comp_def, keeps.kind_eq]

end Kinds

end FilterQuery
