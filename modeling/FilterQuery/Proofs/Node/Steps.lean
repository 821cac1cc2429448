import FilterQuery.Proofs.Node.Assembly

/-!
# Steps of an assembly

A token does one of five things to an assembly that takes it, and closing a group or the whole query
joins the condition at hand with the left sides that were put aside since.  What is shown about
assemblies goes by these five cases.
-/

namespace FilterQuery

/-- A condition joined with the left sides before it, the latest first. -/
def Node.joinBehind : List (Node × Token) → Node → Node
  | [], node => node
  | (left, connective) :: earlier, node => joinBehind earlier (left.join connective node)

theorem Node.joinBehind_append (sides : List (Node × Token)) (left : Node) (connective : Token)
    (node : Node) :
    node.joinBehind (sides ++ [(left, connective)]) =
      left.join connective (node.joinBehind sides) := by
  induction sides generalizing node with
  | nil => rfl
  | cons side sides ih => exact ih (side.1.join side.2 node)

namespace Assembly

/-- Left sides as they are put aside. -/
def putAside (sides : List (Node × Token)) : List Pending :=
  sides.map fun side => .joined side.1 side.2

variable {pending : List Pending} {node : Node}

/-- Closing a group succeeds when only left sides stand before the opening parenthesis. -/
theorem closeGroup_eq_ok_iff {next : Assembly} :
    closeGroup pending (some node) = .ok next ↔
      ∃ sides rest, pending = putAside sides ++ .group :: rest ∧
        next = ⟨rest, .node (node.joinBehind sides)⟩ := by
  constructor
  · intro closed
    induction pending generalizing node with
    | nil => contradiction
    | cons entry pending ih =>
        cases entry with
        | group =>
            cases closed
            exact ⟨[], pending, rfl, rfl⟩
        | joined left connective =>
            rcases ih closed with ⟨sides, rest, rfl, rfl⟩
            exact ⟨(left, connective) :: sides, rest, rfl, rfl⟩
  · rintro ⟨sides, rest, rfl, rfl⟩
    induction sides generalizing node with
    | nil => rfl
    | cons side sides ih => exact ih

/-- A condition ends the query when only left sides were put aside. -/
theorem close_eq_ok_iff {tree : Option Node} :
    close pending (some node) = .ok tree ↔
      ∃ sides, pending = putAside sides ∧ tree = some (node.joinBehind sides) := by
  constructor
  · intro closed
    induction pending generalizing node with
    | nil =>
        cases closed
        exact ⟨[], rfl, rfl⟩
    | cons entry pending ih =>
        cases entry with
        | group => contradiction
        | joined left connective =>
            rcases ih closed with ⟨sides, rfl, rfl⟩
            exact ⟨(left, connective) :: sides, rfl, rfl⟩
  · rintro ⟨sides, rfl, rfl⟩
    induction sides generalizing node with
    | nil => rfl
    | cons side sides ih => exact ih

/-- Without a condition only the empty query ends. -/
theorem close_none_eq_ok_iff {tree : Option Node} :
    close pending none = .ok tree ↔ pending = [] ∧ tree = none := by
  cases pending with
  | nil => simp [close, eq_comm]
  | cons entry rest => cases entry <;> simp [close]

/-- The query ends without a tree when nothing is at hand and nothing was put aside. -/
theorem finish_eq_ok_none_iff {assembly : Assembly} :
    assembly.finish = .ok none ↔ assembly.current = .empty ∧ assembly.pending = [] := by
  rw [finish]
  cases assembly.current <;> simp [Partial.finish, Except.bind, close_none_eq_ok_iff, close_eq_ok_iff]

/-- The query ends with a tree when a condition is at hand and no group is open. -/
theorem finish_eq_ok_some_iff {assembly : Assembly} {root : Node} :
    assembly.finish = .ok (some root) ↔
      ∃ node sides, assembly.current.finish = .ok (some node) ∧
        assembly.pending = putAside sides ∧ root = node.joinBehind sides := by
  rw [finish]
  cases assembly.current.finish with
  | error error => simp [Except.bind]
  | ok tree =>
      cases tree with
      | none => simp [Except.bind, close_none_eq_ok_iff]
      | some node => simp [Except.bind, close_eq_ok_iff]

/-- What a token does to an assembly that takes it. -/
inductive Steps (assembly : Assembly) (token : Token) : Assembly → Prop
  | space (isSpace : token.kind = .space) : Steps assembly token assembly
  | extend {next : Partial} (extended : extend? assembly.current token = some next) :
      Steps assembly token ⟨assembly.pending, next⟩
  | join {left : Node} (isLogic : token.kind.isLogic = true)
      (finished : assembly.current.finish = .ok (some left)) :
      Steps assembly token ⟨.joined left token :: assembly.pending, .empty⟩
  | openGroup (opens : token.kind = .openGroup) (isEmpty : assembly.current = .empty) :
      Steps assembly token ⟨.group :: assembly.pending, .empty⟩
  | closeGroup {node : Node} {sides : List (Node × Token)} {rest : List Pending}
      (closes : token.kind = .closeGroup) (finished : assembly.current.finish = .ok (some node))
      (behind : assembly.pending = putAside sides ++ .group :: rest) :
      Steps assembly token ⟨rest, .node (node.joinBehind sides)⟩

variable {assembly next : Assembly} {token : Token}

/-- No assembly takes an invalid token. -/
theorem step_of_isInvalid (assembly : Assembly) (isInvalid : token.isInvalid = true) :
    assembly.step token = .error (.invalidToken token.raw) := by
  rw [step, Token.kind_eq_of_isInvalid isInvalid]

theorem steps_of_joinWith (isLogic : token.kind.isLogic = true)
    (joined : assembly.joinWith token = .ok next) : Steps assembly token next := by
  unfold joinWith at joined
  split at joined
  · contradiction
  · contradiction
  · next left finished =>
      cases joined
      exact Steps.join isLogic finished

theorem steps_of_closeWith (closes : token.kind = .closeGroup)
    (closed : assembly.closeWith = .ok next) : Steps assembly token next := by
  unfold closeWith at closed
  split at closed
  · next isOpen =>
      cases finished : assembly.current.finish with
      | error error => simp [finished, Except.bind] at closed
      | ok tree =>
          rw [finished] at closed
          cases tree with
          | none =>
              have refused : closeGroup assembly.pending none = .ok next := closed
              cases holds : assembly.pending <;> simp [holds, closeGroup] at refused
          | some node =>
              rcases closeGroup_eq_ok_iff.mp closed with ⟨sides, rest, behind, rfl⟩
              exact Steps.closeGroup closes finished behind
  · contradiction

theorem steps_of_step (stepped : assembly.step token = .ok next) : Steps assembly token next := by
  unfold step at stepped
  split at stepped
  · next isSpace =>
      cases stepped
      exact Steps.space isSpace
  · contradiction
  · next shape => exact steps_of_joinWith (by rw [shape]; rfl) stepped
  · next shape => exact steps_of_joinWith (by rw [shape]; rfl) stepped
  · next closes => exact steps_of_closeWith closes stepped
  · next opens isEmpty =>
      cases stepped
      exact Steps.openGroup opens isEmpty
  · split at stepped
    · next extended =>
        cases stepped
        exact Steps.extend extended
    · contradiction

theorem hasOpenGroup_of_group (front rest : List Pending) :
    hasOpenGroup (front ++ .group :: rest) = true := by
  rw [hasOpenGroup_eq_any, List.any_append, List.any_cons]
  simp [Pending.isGroup]

/-- The five cases are all that an assembly does with the tokens that it takes. -/
theorem step_eq_ok_iff : assembly.step token = .ok next ↔ Steps assembly token next := by
  constructor
  · exact steps_of_step
  · intro steps
    cases steps with
    | space isSpace => rw [step, isSpace]
    | extend extended => exact step_of_extend? extended
    | join isLogic finished => rw [step_of_isLogic isLogic, joinWith, finished]
    | openGroup opens isEmpty => rw [step, opens, isEmpty]
    | closeGroup closes finished behind =>
        rw [step, closes]
        simp only [closeWith, behind, hasOpenGroup_of_group, if_true, finished]
        exact closeGroup_eq_ok_iff.mpr ⟨_, _, rfl, rfl⟩

end Assembly

end FilterQuery
