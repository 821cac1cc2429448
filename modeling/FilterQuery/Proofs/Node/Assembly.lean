import FilterQuery.Proofs.Node.Position

/-!
# Assembling accepted tokens

The classifier and the assembly keep track of a query each in its own way, by a context and by a
stack of unfinished conditions.  The two agree throughout a list of accepted tokens: what the
context expects next is what the condition at hand has room for, and the groups that the context
counts as open are those that have been put aside.  So no accepted token is ever out of place, and
only the end of the query can still be wrong.
-/

namespace FilterQuery

/-- Two typed trees are joined to a typed tree. -/
theorem Node.Typed.join {schema : Schema} {left right : Node} {connective : Token}
    (typed : left.Typed schema) (isLogic : connective.kind.isLogic = true)
    (rightTyped : right.Typed schema) : (left.join connective right).Typed schema := by
  apply Typed.logic isLogic (List.cons_ne_nil left [right])
  intro child member
  simp only [List.mem_cons, List.not_mem_nil, or_false] at member
  rcases member with rfl | rfl
  · exact typed
  · exact rightTyped

namespace Assembly

theorem hasOpenGroup_eq_any (pending : List Pending) :
    hasOpenGroup pending = pending.any Pending.isGroup := by
  unfold hasOpenGroup
  congr 1
  funext entry
  cases entry <;> rfl

/-- The number of open groups among what has been put aside. -/
def openGroups (pending : List Pending) : Nat :=
  pending.countP Pending.isGroup

@[simp]
theorem openGroups_joined (left : Node) (connective : Token) (pending : List Pending) :
    openGroups (.joined left connective :: pending) = openGroups pending := by
  simp [openGroups, Pending.isGroup]

@[simp]
theorem openGroups_group (pending : List Pending) :
    openGroups (.group :: pending) = openGroups pending + 1 :=
  List.countP_cons_of_pos rfl

variable {schema : Schema}

/-- Closing the innermost group joins all that was put aside since it was opened. -/
theorem closeGroup_typed {pending : List Pending} {node : Node}
    (pendingTyped : ∀ entry ∈ pending, entry.Typed schema) (typed : node.Typed schema)
    (isOpen : 0 < openGroups pending) :
    ∃ rest tree, closeGroup pending (some node) = .ok ⟨rest, .node tree⟩ ∧ tree.Typed schema ∧
      (∀ entry ∈ rest, entry.Typed schema) ∧ openGroups pending = openGroups rest + 1 := by
  induction pending generalizing node with
  | nil => simp [openGroups] at isOpen
  | cons entry pending ih =>
      rcases List.forall_mem_cons.mp pendingTyped with ⟨entryTyped, restTyped⟩
      cases entry with
      | joined left connective =>
          rw [openGroups_joined] at isOpen ⊢
          exact ih restTyped (entryTyped.1.join entryTyped.2 typed) isOpen
      | group => exact ⟨pending, node, rfl, typed, restTyped, openGroups_group pending⟩

/-- At the end of the tokens a complete condition is joined with all that was put aside, unless a
group is still open. -/
theorem close_typed {pending : List Pending} {node : Node}
    (pendingTyped : ∀ entry ∈ pending, entry.Typed schema) (typed : node.Typed schema) :
    if openGroups pending = 0 then
      ∃ tree, close pending (some node) = .ok (some tree) ∧ tree.Typed schema
    else close pending (some node) = .error .unclosedGroup := by
  induction pending generalizing node with
  | nil => exact ⟨node, rfl, typed⟩
  | cons entry pending ih =>
      rcases List.forall_mem_cons.mp pendingTyped with ⟨entryTyped, restTyped⟩
      cases entry with
      | joined left connective =>
          rw [openGroups_joined]
          exact ih restTyped (entryTyped.1.join entryTyped.2 typed)
      | group =>
          rw [openGroups_group, if_neg (Nat.succ_ne_zero _)]
          rfl

end Assembly

/-- An assembly agrees with a context when both tell the same of the tokens before. -/
structure Assembly.Agrees (schema : Schema) (context : Context) (assembly : Assembly) : Prop where
  fits : assembly.current.Fits schema context assembly.pending
  typed : ∀ entry ∈ assembly.pending, entry.Typed schema
  opened : context.opened = context.closed + Assembly.openGroups assembly.pending

namespace Assembly

variable {schema : Schema} {context : Context} {assembly : Assembly} {token : Token}

/-- A token for which the condition at hand has room extends it. -/
theorem step_of_extend? {next : Partial} (extended : extend? assembly.current token = some next) :
    assembly.step token = .ok ⟨assembly.pending, next⟩ := by
  rcases assembly with ⟨pending, current⟩
  unfold step
  cases shape : token.kind <;> cases current <;>
    simp_all [extend?, TokenKind.isField, TokenKind.isComparer, TokenKind.isPresence,
      TokenKind.isValue, TokenKind.isSeparator]

theorem step_of_isLogic (isLogic : token.kind.isLogic = true) :
    assembly.step token = assembly.joinWith token := by
  unfold step
  cases shape : token.kind with
  | and | or => rfl
  | _ => simp [shape, TokenKind.isLogic] at isLogic

namespace Agrees

variable (agrees : assembly.Agrees schema context)
include agrees

/-- Counting groups is left to parentheses. -/
theorem opened_push (notOpen : token.kind ≠ .openGroup) (notClose : token.kind ≠ .closeGroup) :
    (context.push schema token).opened =
      (context.push schema token).closed + openGroups assembly.pending := by
  rw [Context.opened_push, Context.closed_push, if_neg notOpen, if_neg notClose]
  exact agrees.opened

theorem step_space (isSpace : token.kind = .space) :
    ∃ next, assembly.step token = .ok next ∧ next.Agrees schema (context.push schema token) := by
  refine ⟨assembly, ?_, ?_⟩
  · unfold step
    rw [isSpace]
  · rw [Context.push_space schema context isSpace]
    exact ⟨agrees.fits.space _, agrees.typed, agrees.opened⟩

theorem step_field {field : Field} (expected : context.expectsField = true)
    (names : token.Names schema field) :
    ∃ next, assembly.step token = .ok next ∧ next.Agrees schema (context.push schema token) := by
  have isEmpty := agrees.fits.eq_empty expected
  have extended : extend? assembly.current token = some (.field token) := by
    rw [isEmpty, extend?, if_pos (by rw [names.kind_eq]; rfl)]
  refine ⟨_, step_of_extend? extended, ?_, agrees.typed, ?_⟩
  · refine ⟨?_, field, Context.field_push_of_names schema context names, names⟩
    rw [Context.previous_push schema context (by rw [names.kind_eq]; decide), names.kind_eq]
  · exact agrees.opened_push (by rw [names.kind_eq]; decide) (by rw [names.kind_eq]; decide)

theorem step_operator {field : Field} (behind : context.previous = some .field)
    (current : context.field = some field) (asks : token.Asks field) :
    ∃ next, assembly.step token = .ok next ∧ next.Agrees schema (context.push schema token) := by
  obtain ⟨subject, holds⟩ := agrees.fits.eq_field agrees.typed behind
  have fits := agrees.fits
  rw [holds] at fits
  rcases fits with ⟨_, named, sameField, names⟩
  rw [current] at sameField
  cases sameField
  have shapes := TokenKind.ordinary_of_isOperator asks.1
  have field_eq : (context.push schema token).field = some field := by
    rw [Context.field_push, if_neg shapes.notField, current]
  have operator_eq : (context.push schema token).operator = some token.kind.toOperator := by
    rw [Context.operator_push, if_pos asks.1]
  have previous_eq := Context.previous_push schema context shapes.notSpace
  have opened_eq := agrees.opened_push shapes.notOpen shapes.notClose
  rcases TokenKind.toOperator_cases asks.1 with ⟨comparer, _⟩ | ⟨presence, isPresence⟩
  · have extended : extend? assembly.current token = some (.operator subject token) := by
      rw [holds, extend?, if_pos comparer]
    exact ⟨_, step_of_extend? extended,
      ⟨previous_eq, comparer, operator_eq, field, field_eq, names, asks⟩, agrees.typed, opened_eq⟩
  · have extended : extend? assembly.current token =
        some (.leaf subject token (.single Token.noOperand)) := by
      rw [holds, extend?, if_neg (by simp [TokenKind.isComparer_eq_false presence]),
        if_pos presence]
    have operandFits : (Operand.single Token.noOperand).Fits field token.kind.toOperator :=
      Operand.fits_noOperand field isPresence
    exact ⟨_, step_of_extend? extended,
      ⟨Or.inr ⟨previous_eq, presence⟩, operator_eq, field, field_eq, names, asks, operandFits⟩,
      agrees.typed, opened_eq⟩

theorem step_value {field : Field} (expected : context.expectsValue = true)
    (takes : context.takesOperand = true) (current : context.field = some field)
    (means : token.Means field) :
    ∃ next, assembly.step token = .ok next ∧ next.Agrees schema (context.push schema token) := by
  obtain ⟨shapes, notOperator⟩ := TokenKind.ordinary_of_isValue means.isValue
  have field_eq : (context.push schema token).field = some field := by
    rw [Context.field_push, if_neg shapes.notField, current]
  have operator_eq : (context.push schema token).operator = context.operator := by
    rw [Context.operator_push, if_neg (by simp [notOperator])]
  have previous_eq : (context.push schema token).previous.any TokenKind.isValue = true := by
    rw [Context.previous_push schema context shapes.notSpace]
    exact means.isValue
  have opened_eq := agrees.opened_push shapes.notOpen shapes.notClose
  have fits := agrees.fits
  rcases fits.awaits_operand agrees.typed expected takes with
    ⟨subject, relation, holds⟩ | ⟨subject, relation, values, holds⟩
  · rw [holds] at fits
    rcases fits with ⟨_, comparer, latest, named, sameField, names, asks⟩
    rw [current] at sameField
    cases sameField
    have extended : extend? assembly.current token =
        some (.leaf subject relation (.single token)) := by
      rw [holds, extend?, if_pos means.isValue]
    have operandFits : (Operand.single token).Fits field relation.kind.toOperator :=
      Operand.fits_single (TokenKind.toOperator_of_isComparer comparer) means
    exact ⟨_, step_of_extend? extended,
      ⟨Or.inl previous_eq, operator_eq.trans latest, field, field_eq, names, asks, operandFits⟩,
      agrees.typed, opened_eq⟩
  · rw [holds] at fits
    rcases fits with ⟨_, latest, takesList, nonempty, named, sameField, names, asks, valuesMean⟩
    rw [current] at sameField
    cases sameField
    have extended : extend? assembly.current token =
        some (.leaf subject relation (.list (values ++ [token]))) := by
      rw [holds, extend?, if_pos means.isValue]
    have operandFits : (Operand.list (values ++ [token])).Fits field relation.kind.toOperator :=
      Operand.fits_list takesList (by simp) (by
        intro value member
        rcases List.mem_append.mp member with member | member
        · exact valuesMean value member
        · rw [List.mem_singleton.mp member]
          exact means)
    exact ⟨_, step_of_extend? extended,
      ⟨Or.inl previous_eq, operator_eq.trans latest, field, field_eq, names, asks, operandFits⟩,
      agrees.typed, opened_eq⟩

theorem step_separator (isSeparator : token.kind.isSeparator = true)
    (allowed : context.allowsSeparator = true) :
    ∃ next, assembly.step token = .ok next ∧ next.Agrees schema (context.push schema token) := by
  obtain ⟨shapes, notOperator⟩ := TokenKind.ordinary_of_isSeparator isSeparator
  obtain ⟨subject, relation, operand, holds⟩ := agrees.fits.eq_leaf agrees.typed allowed
  have fits := agrees.fits
  rw [holds] at fits
  rcases fits with ⟨_, latest, field, current, names, asks, operandFits⟩
  have takesList : relation.kind.toOperator.takesList = true := by
    rw [Context.allowsSeparator, Bool.and_eq_true, latest] at allowed
    exact allowed.1
  have extended : extend? assembly.current token =
      some (.separated subject relation operand.tokens) := by
    rw [holds, extend?, if_pos isSeparator]
  have field_eq : (context.push schema token).field = some field := by
    rw [Context.field_push, if_neg shapes.notField, current]
  have operator_eq :
      (context.push schema token).operator = some relation.kind.toOperator := by
    rw [Context.operator_push, if_neg (by simp [notOperator]), latest]
  have previous_eq : (context.push schema token).previous.any TokenKind.isSeparator = true := by
    rw [Context.previous_push schema context shapes.notSpace]
    exact isSeparator
  have valuesMean := operandFits.means (Operator.isComparer_of_takesList takesList)
  exact ⟨_, step_of_extend? extended,
    ⟨previous_eq, operator_eq, takesList, operandFits.nonempty, field, field_eq, names, asks,
      valuesMean⟩,
    agrees.typed, agrees.opened_push shapes.notOpen shapes.notClose⟩

theorem step_logic (isLogic : token.kind.isLogic = true) (complete : context.isComplete = true) :
    ∃ next, assembly.step token = .ok next ∧ next.Agrees schema (context.push schema token) := by
  have shapes := TokenKind.ordinary_of_isLogic isLogic
  obtain ⟨left, finished, typed⟩ := agrees.fits.finish_eq_ok agrees.typed complete
  refine ⟨⟨.joined left token :: assembly.pending, .empty⟩, ?_, ?_, ?_, ?_⟩
  · rw [step_of_isLogic isLogic, joinWith, finished]
  · exact Context.previous_push schema context shapes.notSpace
  · exact List.forall_mem_cons.mpr ⟨⟨typed, isLogic⟩, agrees.typed⟩
  · rw [openGroups_joined]
    exact agrees.opened_push shapes.notOpen shapes.notClose

theorem step_openGroup (opens : token.kind = .openGroup) (expected : context.expectsField = true) :
    ∃ next, assembly.step token = .ok next ∧ next.Agrees schema (context.push schema token) := by
  have isEmpty := agrees.fits.eq_empty expected
  refine ⟨⟨.group :: assembly.pending, .empty⟩, ?_, ?_, ?_, ?_⟩
  · rw [step, opens, isEmpty]
  · have visible : token.kind ≠ .space := by
      rw [opens]
      decide
    have previous_eq := Context.previous_push schema context visible
    rw [opens] at previous_eq
    exact previous_eq
  · exact List.forall_mem_cons.mpr ⟨trivial, agrees.typed⟩
  · rw [openGroups_group, Context.opened_push, Context.closed_push, opens, agrees.opened]
    rfl

theorem step_closeGroup (closes : token.kind = .closeGroup)
    (allowed : context.allowsClose = true) :
    ∃ next, assembly.step token = .ok next ∧ next.Agrees schema (context.push schema token) := by
  rw [Context.allowsClose, Bool.and_eq_true, decide_eq_true_eq] at allowed
  rcases allowed with ⟨moreOpened, complete⟩
  obtain ⟨node, finished, typed⟩ := agrees.fits.finish_eq_ok agrees.typed complete
  have isOpen : 0 < openGroups assembly.pending := by
    rw [agrees.opened] at moreOpened
    exact Nat.pos_of_lt_add_right moreOpened
  rcases closeGroup_typed agrees.typed typed isOpen with
    ⟨rest, tree, closed, treeTyped, restTyped, fewer⟩
  refine ⟨⟨rest, .node tree⟩, ?_, ⟨?_, treeTyped⟩, restTyped, ?_⟩
  · have openAmong : hasOpenGroup assembly.pending = true := by
      rw [hasOpenGroup_eq_any, List.any_eq_true]
      exact List.countP_pos_iff.mp isOpen
    rw [step, closes]
    simp only [closeWith, openAmong, if_true, finished]
    exact closed
  · rw [Context.previous_push schema context (by rw [closes]; decide), closes]
  · rw [Context.opened_push, Context.closed_push, closes, agrees.opened, fewer]
    simp only [reduceCtorEq, if_false, if_true]
    omega

/-- An accepted token is never out of place: the assembly takes it and goes on to agree with the
context behind it. -/
theorem step (accepted : Accepts schema context token) :
    ∃ next, assembly.step token = .ok next ∧ next.Agrees schema (context.push schema token) := by
  cases accepted with
  | space isSpace => exact agrees.step_space isSpace
  | field field expected names => exact agrees.step_field expected names
  | operator field behind current asks => exact agrees.step_operator behind current asks
  | value field expected takes current means =>
      exact agrees.step_value expected takes current means
  | logic isLogic complete => exact agrees.step_logic isLogic complete
  | separator isSeparator allowed => exact agrees.step_separator isSeparator allowed
  | openGroup opens expected => exact agrees.step_openGroup opens expected
  | closeGroup closes allowed => exact agrees.step_closeGroup closes allowed

/-- Assembling tokens that are judged one by one stops at the first invalid one, and nowhere
else. -/
theorem run {tokens : List Token} (judged : Run schema context tokens) :
    match firstInvalid? tokens with
    | some token => tokens.foldlM Assembly.step assembly = .error (.invalidToken token.raw)
    | none =>
        ∃ final, tokens.foldlM Assembly.step assembly = .ok final ∧
          final.Agrees schema (context.after schema tokens) := by
  induction judged generalizing assembly with
  | nil context => exact ⟨assembly, rfl, agrees⟩
  | @cons context token tokens judged rest ih =>
      rw [firstInvalid?, List.find?_cons, List.foldlM_cons]
      rcases judged with isInvalid | accepted
      · have refused : assembly.step token = .error (.invalidToken token.raw) := by
          rw [Assembly.step, Token.kind_eq_of_isInvalid isInvalid]
        rw [isInvalid, refused]
        rfl
      · obtain ⟨next, stepped, nextAgrees⟩ := agrees.step accepted
        rw [accepted.isInvalid_eq_false, stepped]
        exact ih nextAgrees

/-- A complete condition ends the query unless a group is still open. -/
theorem finish_of_complete {node : Node} (finished : assembly.current.finish = .ok (some node))
    (nodeTyped : node.Typed schema) :
    if context.opened = context.closed then
      ∃ tree, assembly.finish = .ok tree ∧ ∀ root, tree = some root → root.Typed schema
    else assembly.finish = .error .unclosedGroup := by
  have closing := close_typed agrees.typed nodeTyped
  have opened := agrees.opened
  rw [Assembly.finish, finished]
  split
  · next balanced =>
      rw [if_pos (by omega)] at closing
      rcases closing with ⟨tree, closed, treeTyped⟩
      refine ⟨some tree, closed, ?_⟩
      rintro root ⟨⟩
      exact treeTyped
  · next unbalanced =>
      rw [if_neg (by omega)] at closing
      exact closing

/-- Before the first token of a condition only a connective waits for more, and only an opening
parenthesis leaves a group open. -/
theorem finish_of_empty (isEmpty : assembly.current = .empty) :
    if context.previous.any TokenKind.awaitsMore then
      assembly.finish = .error .incompleteExpression
    else if context.opened = context.closed then
      ∃ tree, assembly.finish = .ok tree ∧ ∀ root, tree = some root → root.Typed schema
    else assembly.finish = .error .unclosedGroup := by
  have fits := agrees.fits
  rw [isEmpty] at fits
  have previous_eq : context.previous = assembly.pending.head?.map Pending.mark := fits
  have opened := agrees.opened
  rw [previous_eq, Assembly.finish, isEmpty]
  cases putAside : assembly.pending with
  | nil =>
      rw [putAside] at opened
      simp only [openGroups, List.countP_nil, Nat.add_zero] at opened
      simp [Partial.finish, Except.bind, close, opened]
  | cons entry rest =>
      rw [putAside] at opened
      cases entry with
      | joined left connective =>
          have entryTyped : (Pending.joined left connective).Typed schema :=
            agrees.typed _ (by rw [putAside]; exact List.mem_cons_self)
          have awaits : connective.kind.awaitsMore = true := by
            simp [TokenKind.awaitsMore, entryTyped.2]
          simp [Pending.mark, awaits, Partial.finish, Except.bind, close]
      | group =>
          rw [openGroups_group] at opened
          have unbalanced : context.opened ≠ context.closed := by omega
          simp [Pending.mark, TokenKind.awaitsMore, TokenKind.isField, TokenKind.isComparer,
            TokenKind.isSeparator, TokenKind.isLogic, unbalanced, Partial.finish, Except.bind,
            close]

/-- At the end of the tokens a condition that waits for more is incomplete, and otherwise only an
open group is still wrong. -/
theorem finish :
    if context.previous.any TokenKind.awaitsMore then
      assembly.finish = .error .incompleteExpression
    else if context.opened = context.closed then
      ∃ tree, assembly.finish = .ok tree ∧ ∀ root, tree = some root → root.Typed schema
    else assembly.finish = .error .unclosedGroup := by
  have fits := agrees.fits
  cases holds : assembly.current with
  | empty => exact agrees.finish_of_empty holds
  | field subject =>
      rw [holds] at fits
      rw [fits.1, Assembly.finish, holds]
      rfl
  | operator subject relation =>
      rw [holds] at fits
      have awaits : relation.kind.awaitsMore = true := by simp [TokenKind.awaitsMore, fits.2.1]
      rw [fits.1, Option.any_some, if_pos awaits, Assembly.finish, holds]
      rfl
  | leaf subject relation operand =>
      rw [holds] at fits
      rw [fits.awaitsMore_of_leaf]
      rcases fits with ⟨_, _, field, _, names, asks, operandFits⟩
      exact agrees.finish_of_complete (by rw [holds]; rfl)
        (Node.Typed.leaf field names asks operandFits)
  | separated subject relation values =>
      rw [holds] at fits
      rcases (Option.any_eq_true _ _).mp fits.1 with ⟨kind, behind, isSeparator⟩
      have awaits : kind.awaitsMore = true := by simp [TokenKind.awaitsMore, isSeparator]
      rw [behind, Option.any_some, if_pos awaits, Assembly.finish, holds]
      rfl
  | node tree =>
      rw [holds] at fits
      have complete : context.previous.any TokenKind.awaitsMore = false := by
        rw [fits.1]
        rfl
      rw [complete]
      exact agrees.finish_of_complete (by rw [holds]; rfl) fits.2

/-- Behind an opening parenthesis a group is open. -/
theorem unbalanced_of_openGroup (behind : context.previous = some .openGroup) :
    context.opened ≠ context.closed := by
  have fits := agrees.fits
  have opened := agrees.opened
  have isEmpty : assembly.current = .empty := by
    apply fits.eq_empty
    rw [Context.expectsField, behind]
    rfl
  rw [isEmpty] at fits
  have marked : some TokenKind.openGroup = assembly.pending.head?.map Pending.mark :=
    behind.symm.trans fits
  cases putAside : assembly.pending with
  | nil => simp [putAside] at marked
  | cons entry rest =>
      rw [putAside] at opened marked
      cases entry with
      | joined left connective =>
          have entryTyped : (Pending.joined left connective).Typed schema :=
            agrees.typed _ (by rw [putAside]; exact List.mem_cons_self)
          have isLogic := entryTyped.2
          rw [← show TokenKind.openGroup = connective.kind from Option.some.inj marked] at isLogic
          contradiction
      | group =>
          rw [openGroups_group] at opened
          omega

end Agrees

/-- Before the first token both start from nothing. -/
theorem agrees_start : Assembly.start.Agrees schema Context.start where
  fits := rfl
  typed _ member := by contradiction
  opened := rfl

end Assembly

end FilterQuery
