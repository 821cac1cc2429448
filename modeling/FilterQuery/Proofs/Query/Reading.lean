import FilterQuery.Proofs.Node.Steps
import FilterQuery.Proofs.Query.TextAgreement
import FilterQuery.Proofs.Token.Piece

/-!
# Reading a text query piece by piece

Scanning and assembling go hand in hand: what is left of a text is scanned behind the context, and
assembled onto the conditions, that the pieces before it have led to.  So a query is followed from
piece to piece, with a context and an assembly that agree all the way.
-/

namespace FilterQuery

namespace Schema

variable {schema : Schema} {context : Context}

/-- Assemble the tokens of what is left of a text. -/
def assemble (schema : Schema) (context : Context) (assembly : Assembly) (text : List Char) :
    Except ParseError Assembly :=
  (schema.scanFrom context text).foldlM Assembly.step assembly

theorem assemble_nil (context : Context) (assembly : Assembly) :
    schema.assemble context assembly [] = .ok assembly := by
  rw [assemble, scanFrom_nil]
  rfl

/-- The tree of a text query is what its assembly comes to in the end. -/
theorem ofTokens_scan (schema : Schema) (query : String) :
    Node.ofTokens (schema.scan query) =
      (schema.assemble Context.start Assembly.start query.toList).bind Assembly.finish :=
  rfl

/-- A text query means what its tree means. -/
theorem compileText_of_ofTokens {query : String} {root : Node} {expression : Expression}
    (built : Node.ofTokens (schema.scan query) = .ok (some root))
    (meant : Expression.ofNode schema root = .ok expression) :
    schema.compileText query = .ok (some expression) := by
  have compiled : schema.compileText query =
      (Node.ofTokens (schema.scan query)).bind schema.compileNode := rfl
  simp [compiled, built, Except.bind, compileNode, meant, Except.map]

/-- What is judged is judged from the start. -/
theorem run_of_append {front behind : List Token} (judged : Run schema context (front ++ behind)) :
    Run schema context front := by
  induction front generalizing context with
  | nil => exact Run.nil context
  | cons token front ih =>
      cases judged with
      | cons first rest => exact Run.cons first (ih rest)

/-- A blank before a text does not change what the text is, unless that is a blank too. -/
theorem classify_push_blank (context : Context) {kind : TokenKind} (raw : String)
    (visible : kind ≠ .space) :
    schema.classify (context.push schema Token.blank) kind raw =
      schema.classify context kind raw :=
  classify_last context (some .space) raw visible

/-- Behind something complete a connective is accepted. -/
theorem classify_of_isLogic {kind : TokenKind} (isLogic : kind.isLogic = true)
    (complete : context.isComplete = true) (raw : String) :
    schema.classify context kind raw = some (Token.ofText kind raw) := by
  cases kind with
  | and | or => rw [classify, complete, Token.acceptedIf, if_pos rfl]
  | _ => contradiction

end Schema

namespace Assembly.Agrees

variable {schema : Schema} {context : Context} {assembly next : Assembly} {token : Token}

/-- A token that was judged and is taken leaves the assembly in agreement. -/
theorem of_step (agrees : assembly.Agrees schema context) (judged : Judged schema context token)
    (stepped : assembly.step token = .ok next) :
    next.Agrees schema (context.push schema token) := by
  rcases judged with isInvalid | accepted
  · rw [assembly.step_of_isInvalid isInvalid] at stepped
    contradiction
  · obtain ⟨other, steppedOther, otherAgrees⟩ := agrees.step accepted
    rw [stepped] at steppedOther
    cases steppedOther
    exact otherAgrees

/-- Tokens that were judged one by one and are taken leave the assembly in agreement. -/
theorem of_foldlM (agrees : assembly.Agrees schema context) {tokens : List Token}
    (judged : Run schema context tokens)
    (assembled : tokens.foldlM Assembly.step assembly = .ok next) :
    next.Agrees schema (context.after schema tokens) := by
  induction judged generalizing assembly with
  | nil context =>
      cases assembled
      exact agrees
  | @cons context token tokens judged rest ih =>
      rw [List.foldlM_cons] at assembled
      cases stepped : assembly.step token with
      | error error =>
          rw [stepped] at assembled
          contradiction
      | ok middle =>
          rw [stepped] at assembled
          exact ih (agrees.of_step judged stepped) assembled

variable (agrees : assembly.Agrees schema context)
include agrees

/-- Reading a piece that the assembly takes leads on to what is left of the text. -/
theorem assemble_piece {kind : TokenKind} (piece : List Char) {rest : List Char}
    (matched : schema.match? (piece ++ rest) = some (kind, piece.length))
    (classified : schema.classify context kind (String.ofList piece) = some token)
    (stepped : assembly.step token = .ok next) :
    schema.assemble context assembly (piece ++ rest) =
        schema.assemble (context.push schema token) next rest ∧
      next.Agrees schema (context.push schema token) := by
  refine ⟨?_, agrees.of_step (Schema.judged_of_classify classified) stepped⟩
  rw [Schema.assemble, Schema.scanFrom_of_match? matched classified, List.foldlM_cons, stepped]
  rfl

theorem assemble_blank (first : context.last ≠ some .space) (rest : List Char) :
    schema.assemble context assembly (' ' :: rest) =
        schema.assemble (context.push schema Token.blank) assembly rest ∧
      assembly.Agrees schema (context.push schema Token.blank) := by
  have stepped : assembly.step Token.blank = .ok assembly := rfl
  refine ⟨?_, agrees.of_step (Or.inr (Accepts.space rfl)) stepped⟩
  rw [Schema.assemble, Schema.scanFrom_blank rest first, List.foldlM_cons, stepped]
  rfl

/-- Reading a blank and a piece leads on as reading the piece alone. -/
theorem assemble_blank_piece (first : context.last ≠ some .space) {kind : TokenKind}
    {piece rest : List Char}
    (matched : schema.match? (piece ++ rest) = some (kind, piece.length))
    (classified : schema.classify context kind (String.ofList piece) = some token)
    (stepped : assembly.step token = .ok next) :
    schema.assemble context assembly (' ' :: (piece ++ rest)) =
        schema.assemble (context.push schema token) next rest ∧
      next.Agrees schema (context.push schema token) := by
  have visible := Schema.kind_ne_space_of_match? matched
  obtain ⟨other, sameToken, tokenVisible⟩ :=
    schema.classify_visible context (String.ofList piece) visible
  rw [classified] at sameToken
  cases sameToken
  obtain ⟨blank_eq, blankAgrees⟩ := agrees.assemble_blank first (piece ++ rest)
  have behind := blankAgrees.assemble_piece piece matched
    ((Schema.classify_push_blank context _ visible).trans classified) stepped
  rw [Schema.push_blank_push context tokenVisible] at behind
  rw [blank_eq]
  exact behind

/-- Where the condition at hand is a tree, the context is complete. -/
theorem isComplete {node : Node} (finished : assembly.current.finish = .ok (some node)) :
    context.isComplete = true := by
  have fits := agrees.fits
  cases holds : assembly.current with
  | leaf subject relation operand =>
      rw [holds] at fits
      rcases fits.expects_of_leaf with ⟨value, expects, _⟩
      exact expects.complete
  | node tree =>
      rw [holds] at fits
      exact fits.expects_of_node.complete
  | empty | field _ | operator _ _ | separated _ _ _ =>
      rw [holds] at finished
      cases finished

/-- Behind a condition a connective between blanks puts the condition aside. -/
theorem assemble_connective {left : Node} (finished : assembly.current.finish = .ok (some left))
    (first : context.last ≠ some .space) {kind : TokenKind} {keyword : String} {rest : List Char}
    (isLogic : kind.isLogic = true)
    (matched : schema.match? (keyword.toList ++ ' ' :: rest) =
      some (kind, keyword.toList.length)) :
    ∃ behind, (Assembly.mk (.joined left (Token.ofText kind keyword) :: assembly.pending)
        .empty).Agrees schema behind ∧
      schema.assemble context assembly (' ' :: (keyword.toList ++ ' ' :: rest)) =
        schema.assemble behind
          ⟨.joined left (Token.ofText kind keyword) :: assembly.pending, .empty⟩ rest := by
  have connectiveLogic : (Token.ofText kind keyword).kind.isLogic = true := isLogic
  have classified : schema.classify context kind (String.ofList keyword.toList) =
      some (Token.ofText kind keyword) := by
    rw [String.ofList_toList]
    exact Schema.classify_of_isLogic isLogic (agrees.isComplete finished) keyword
  have stepped := Assembly.step_eq_ok_iff.mpr (Steps.join connectiveLogic finished)
  obtain ⟨joined, joinedAgrees⟩ := agrees.assemble_blank_piece first matched classified stepped
  obtain ⟨blank, blankAgrees⟩ := joinedAgrees.assemble_blank
    (Schema.last_push_ne_space context (TokenKind.ordinary_of_isLogic connectiveLogic).notSpace)
    rest
  exact ⟨_, blankAgrees, joined.trans blank⟩

end Assembly.Agrees

namespace Schema

variable {schema : Schema} {context : Context} {pending : List Pending}

/-- Where a field is expected, an opening parenthesis puts a group aside. -/
theorem assemble_open (agrees : (Assembly.mk pending .empty).Agrees schema context)
    (rest : List Char) :
    schema.assemble context ⟨pending, .empty⟩ ('(' :: rest) =
        schema.assemble (context.push schema (Token.ofText .openGroup "("))
          ⟨.group :: pending, .empty⟩ rest ∧
      (Assembly.mk (.group :: pending) .empty).Agrees schema
        (context.push schema (Token.ofText .openGroup "(")) := by
  have expected : context.expectsField = true := (agrees.fits.expects_of_empty agrees.typed).field
  have opened : (Assembly.mk pending .empty).step (Token.ofText .openGroup "(") =
      .ok ⟨.group :: pending, .empty⟩ := rfl
  exact agrees.assemble_piece ['('] (schema.match?_open rest)
    (by rw [classify, expected]; rfl) opened

/-- Behind a condition a closing parenthesis joins the condition with the left sides that were put
aside since the group was opened. -/
theorem assemble_close {sides : List (Node × Token)} {current : Partial} {node : Node}
    (agrees : (Assembly.mk (Assembly.putAside sides ++ .group :: pending) current).Agrees
      schema context)
    (finished : current.finish = .ok (some node)) (rest : List Char) :
    ∃ behind, behind.last ≠ some .space ∧
      (Assembly.mk pending (.node (node.joinBehind sides))).Agrees schema behind ∧
      schema.assemble context ⟨Assembly.putAside sides ++ .group :: pending, current⟩
          (')' :: rest) =
        schema.assemble behind ⟨pending, .node (node.joinBehind sides)⟩ rest := by
  have allowed : context.allowsClose = true := by
    have isOpen : 0 < Assembly.openGroups (Assembly.putAside sides ++ .group :: pending) :=
      List.countP_pos_iff.mpr ⟨.group, by simp, rfl⟩
    have opened : context.opened = context.closed +
        Assembly.openGroups (Assembly.putAside sides ++ .group :: pending) := agrees.opened
    rw [Context.allowsClose, agrees.isComplete finished, Bool.and_true, decide_eq_true_eq]
    omega
  have closed : (Assembly.mk (Assembly.putAside sides ++ .group :: pending) current).step
      (Token.ofText .closeGroup ")") = .ok ⟨pending, .node (node.joinBehind sides)⟩ :=
    Assembly.step_eq_ok_iff.mpr (Assembly.Steps.closeGroup rfl finished rfl)
  obtain ⟨assembled, closedAgrees⟩ := agrees.assemble_piece [')'] (schema.match?_close rest)
    (by rw [classify, allowed]; rfl) closed
  exact ⟨_, last_push_ne_space context TokenKind.noConfusion, closedAgrees, assembled⟩

end Schema

end FilterQuery
