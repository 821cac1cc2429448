import FilterQuery.Proofs.Node.Steps

/-!
# Trees of text queries

A text query has less freedom than an array query.  A connective always joins two conditions, and a
list of operands has at least two of them, behind an operator that takes lists.
-/

namespace FilterQuery

/-- Whether an operand is a single one, or one of several that its operator takes. -/
def Operand.InTextForm (relation : Token) : Operand → Prop
  | single _ => True
  | list tokens => relation.kind.toOperator.takesList = true ∧ 2 ≤ tokens.length

/-- The trees that text queries are assembled to. -/
inductive Node.InTextForm : Node → Prop
  | leaf {subject relation : Token} {operand : Operand} (form : operand.InTextForm relation) :
      InTextForm (.leaf subject relation operand)
  | join {left right : Node} (connective : Token) (leftForm : left.InTextForm)
      (rightForm : right.InTextForm) : InTextForm (left.join connective right)

/-- Whether what there is of a condition has the form of a text query. -/
def Partial.InTextForm : Partial → Prop
  | .leaf _ relation operand => operand.InTextForm relation
  | .node tree => tree.InTextForm
  | .empty | .field _ | .operator _ _ | .separated _ _ _ => True

/-- Whether what was put aside has the form of a text query. -/
def Pending.InTextForm : Pending → Prop
  | joined left _ => left.InTextForm
  | group => True

/-- An assembly is in text form when all that was read so far is. -/
structure Assembly.InTextForm (assembly : Assembly) : Prop where
  current : assembly.current.InTextForm
  pending : ∀ entry ∈ assembly.pending, entry.InTextForm

theorem Node.InTextForm.joinBehind {node : Node} (form : node.InTextForm)
    {sides : List (Node × Token)}
    (sidesForm : ∀ entry ∈ Assembly.putAside sides, entry.InTextForm) :
    (node.joinBehind sides).InTextForm := by
  induction sides generalizing node with
  | nil => exact form
  | cons side sides ih =>
      rcases List.forall_mem_cons.mp sidesForm with ⟨sideForm, restForm⟩
      exact ih (Node.InTextForm.join side.2 sideForm form) restForm

theorem Partial.InTextForm.finish {current : Partial} (form : current.InTextForm) {tree : Node}
    (finished : current.finish = .ok (some tree)) : tree.InTextForm := by
  cases current with
  | leaf subject relation operand =>
      cases finished
      exact Node.InTextForm.leaf form
  | node root =>
      cases finished
      exact form
  | empty | field _ | operator _ _ | separated _ _ _ => cases finished

namespace Assembly

variable {schema : Schema} {context : Context} {assembly next : Assembly} {token : Token}

theorem inTextForm_start : start.InTextForm where
  current := trivial
  pending _ member := by contradiction

/-- A condition that fits the context stays in text form: another operand in a list is at least the
second one. -/
theorem Agrees.inTextForm_extend (agrees : assembly.Agrees schema context) {current : Partial}
    (extended : extend? assembly.current token = some current) : current.InTextForm := by
  have fits := agrees.fits
  cases holds : assembly.current with
  | node tree =>
      rw [holds] at extended
      contradiction
  | empty =>
      simp only [holds, extend?, Option.ite_none_right_eq_some, Option.some.injEq] at extended
      rw [← extended.2]
      trivial
  | field subject =>
      rw [holds, extend?] at extended
      split at extended
      · cases extended
        trivial
      · split at extended
        · cases extended
          trivial
        · contradiction
  | operator subject relation =>
      simp only [holds, extend?, Option.ite_none_right_eq_some, Option.some.injEq] at extended
      rw [← extended.2]
      trivial
  | leaf subject relation operand =>
      simp only [holds, extend?, Option.ite_none_right_eq_some, Option.some.injEq] at extended
      rw [← extended.2]
      trivial
  | separated subject relation values =>
      rw [holds] at fits
      simp only [holds, extend?, Option.ite_none_right_eq_some, Option.some.injEq] at extended
      rw [← extended.2]
      have some_values := List.length_pos_iff.mpr fits.2.2.2.1
      refine ⟨fits.2.2.1, ?_⟩
      rw [List.length_append, List.length_singleton]
      omega

/-- A token keeps an assembly in text form. -/
theorem Agrees.inTextForm_step (agrees : assembly.Agrees schema context)
    (form : assembly.InTextForm) (stepped : assembly.step token = .ok next) :
    next.InTextForm := by
  have pendingForm := form.pending
  cases steps_of_step stepped with
  | space isSpace => exact form
  | extend extended => exact ⟨agrees.inTextForm_extend extended, pendingForm⟩
  | join isLogic finished =>
      exact ⟨trivial, List.forall_mem_cons.mpr ⟨form.current.finish finished, pendingForm⟩⟩
  | openGroup opens isEmpty => exact ⟨trivial, List.forall_mem_cons.mpr ⟨trivial, pendingForm⟩⟩
  | closeGroup closes finished behind =>
      rw [behind, List.forall_mem_append, List.forall_mem_cons] at pendingForm
      exact ⟨(form.current.finish finished).joinBehind pendingForm.1, pendingForm.2.2⟩

/-- Whatever is assembled from judged tokens is in text form. -/
theorem Agrees.inTextForm_run (agrees : assembly.Agrees schema context)
    (form : assembly.InTextForm) {tokens : List Token} (judged : Run schema context tokens)
    (assembled : tokens.foldlM Assembly.step assembly = .ok next) : next.InTextForm := by
  induction judged generalizing assembly with
  | nil context =>
      cases assembled
      exact form
  | @cons context token tokens judged rest ih =>
      rw [List.foldlM_cons] at assembled
      rcases judged with isInvalid | accepted
      · rw [assembly.step_of_isInvalid isInvalid] at assembled
        contradiction
      · obtain ⟨behind, stepped, agreesBehind⟩ := agrees.step accepted
        rw [stepped] at assembled
        exact ih agreesBehind (agrees.inTextForm_step form stepped) assembled

end Assembly

/-- The tree of a text query is in text form. -/
theorem Node.inTextForm_of_ofTokens {schema : Schema} {tokens : List Token}
    (judged : Run schema Context.start tokens) {root : Node}
    (built : ofTokens tokens = .ok (some root)) : root.InTextForm := by
  rw [ofTokens] at built
  cases assembled : tokens.foldlM Assembly.step Assembly.start with
  | error error => simp [assembled, Except.bind] at built
  | ok final =>
      rw [assembled] at built
      rcases Assembly.finish_eq_ok_some_iff.mp built with ⟨node, sides, finished, behind, rfl⟩
      have agrees : Assembly.start.Agrees schema Context.start := Assembly.agrees_start
      have form := agrees.inTextForm_run Assembly.inTextForm_start judged assembled
      have sidesForm := form.pending
      rw [behind] at sidesForm
      exact (form.current.finish finished).joinBehind sidesForm

end FilterQuery
