import FilterQuery.Proofs.Expression.WellTyped
import FilterQuery.Proofs.Lexicon.Spelling
import FilterQuery.Proofs.Query.Reading
import FilterQuery.Proofs.Token.Group

/-!
# Composing text queries

Text queries that compile can be put in parentheses and joined by connectives.  In a group a query
is scanned to the same tokens as on its own, and it is assembled on top of whatever was put aside
before the group, so the closing parenthesis behind it joins exactly what belongs to the query.
-/

namespace FilterQuery

namespace Assembly

variable {assembly next : Assembly} {token : Token}

/-- An assembly with something put aside below all that it has put aside itself. -/
def onTopOf (assembly : Assembly) (below : List Pending) : Assembly :=
  ⟨assembly.pending ++ below, assembly.current⟩

/-- What an assembly does with a token does not depend on what lies below it. -/
theorem Steps.onTopOf (steps : Steps assembly token next) (below : List Pending) :
    Steps (assembly.onTopOf below) token (next.onTopOf below) := by
  cases steps with
  | space isSpace => exact Steps.space isSpace
  | extend extended => exact Steps.extend extended
  | join isLogic finished => exact Steps.join isLogic finished
  | openGroup opens isEmpty => exact Steps.openGroup opens isEmpty
  | closeGroup closes finished behind =>
      refine @Steps.closeGroup (assembly.onTopOf below) token _ _ _ closes finished ?_
      rw [Assembly.onTopOf, behind, List.append_assoc, List.cons_append]

theorem foldlM_onTopOf {tokens : List Token} (below : List Pending)
    (assembled : tokens.foldlM step assembly = .ok next) :
    tokens.foldlM step (assembly.onTopOf below) = .ok (next.onTopOf below) := by
  induction tokens generalizing assembly with
  | nil =>
      cases assembled
      rfl
  | cons token tokens ih =>
      rw [List.foldlM_cons] at assembled ⊢
      cases stepped : assembly.step token with
      | error error =>
          rw [stepped] at assembled
          contradiction
      | ok middle =>
          rw [stepped] at assembled
          rw [step_eq_ok_iff.mpr ((steps_of_step stepped).onTopOf below)]
          exact ih assembled

end Assembly

namespace Schema

variable {schema : Schema} {context : Context}

/-- A text query that is assembled to a tree has no invalid token, and only left sides are put aside
in the end. -/
theorem exists_assembly {query : String} {root : Node}
    (built : Node.ofTokens (schema.scan query) = .ok (some root)) :
    ∃ final node sides, (schema.scan query).foldlM Assembly.step Assembly.start = .ok final ∧
      final.current.finish = .ok (some node) ∧ final.pending = Assembly.putAside sides ∧
      root = node.joinBehind sides ∧ firstInvalid? (schema.scan query) = none := by
  have assembled := Assembly.agrees_start.run (schema.run_scanFrom Context.start query.toList)
  rw [← scan] at assembled
  rw [Node.ofTokens] at built
  cases found : firstInvalid? (schema.scan query) with
  | some token =>
      rw [found] at assembled
      simp only at assembled
      rw [assembled] at built
      contradiction
  | none =>
      rw [found] at assembled
      rcases assembled with ⟨final, folded, _⟩
      rw [folded] at built
      rcases Assembly.finish_eq_ok_some_iff.mp built with ⟨node, sides, finished, behind, same⟩
      exact ⟨final, node, sides, folded, finished, behind, same, rfl⟩

/-- Where a field is expected, a query in parentheses is read as its tree. -/
theorem assemble_group (avoids : schema.NamesAvoidClose) {pending : List Pending}
    (agrees : (Assembly.mk pending .empty).Agrees schema context) {query : String} {root : Node}
    (built : Node.ofTokens (schema.scan query) = .ok (some root)) (rest : List Char) :
    ∃ behind, behind.last ≠ some .space ∧
      (Assembly.mk pending (.node root)).Agrees schema behind ∧
      schema.assemble context ⟨pending, .empty⟩ ('(' :: (query.toList ++ ')' :: rest)) =
        schema.assemble behind ⟨pending, .node root⟩ rest := by
  obtain ⟨final, node, sides, folded, finished, behindSides, rfl, valid⟩ := exists_assembly built
  have balanced : context.closed ≤ context.opened := by
    rw [agrees.opened]
    exact Nat.le_add_right _ _
  obtain ⟨opened, openAgrees⟩ := assemble_open agrees (query.toList ++ ')' :: rest)
  have scanned := scanFrom_enclosed avoids _ rest
    (Context.encloses_start schema (Token.ofText .openGroup "(") rfl balanced) valid
  rw [← scan] at scanned
  have onTop : (schema.scan query).foldlM Assembly.step ⟨.group :: pending, .empty⟩ =
      .ok ⟨Assembly.putAside sides ++ .group :: pending, final.current⟩ := by
    rw [← behindSides]
    exact Assembly.foldlM_onTopOf (.group :: pending) folded
  have content : schema.assemble (context.push schema (Token.ofText .openGroup "("))
      ⟨.group :: pending, .empty⟩ (query.toList ++ ')' :: rest) =
      schema.assemble ((context.push schema (Token.ofText .openGroup "(")).after schema
        (schema.scan query)) ⟨Assembly.putAside sides ++ .group :: pending, final.current⟩
          (')' :: rest) := by
    rw [assemble, scanned, List.foldlM_append, onTop]
    rfl
  have contentAgrees : (Assembly.mk (Assembly.putAside sides ++ .group :: pending)
      final.current).Agrees schema
        ((context.push schema (Token.ofText .openGroup "(")).after schema (schema.scan query)) := by
    have judged := schema.run_scanFrom (context.push schema (Token.ofText .openGroup "("))
      (query.toList ++ ')' :: rest)
    rw [scanned] at judged
    exact openAgrees.of_foldlM (run_of_append judged) onTop
  obtain ⟨behind, notSpace, closedAgrees, closed⟩ := assemble_close contentAgrees finished rest
  exact ⟨behind, notSpace, closedAgrees, opened.trans (content.trans closed)⟩

/-- A query that compiles has a tree. -/
theorem exists_tree_of_compileText {query : String} {expression : Expression}
    (compiled : schema.compileText query = .ok (some expression)) :
    ∃ root, Node.ofTokens (schema.scan query) = .ok (some root) ∧
      Expression.ofNode schema root = .ok expression :=
  @Source.exists_tree_of_compile schema (.written .text query) expression compiled

theorem compileText_group (avoids : schema.NamesAvoidClose) {query : String}
    {expression : Expression} (compiled : schema.compileText query = .ok (some expression)) :
    schema.compileText ("(" ++ query ++ ")") = .ok (some expression) := by
  obtain ⟨root, built, meant⟩ := exists_tree_of_compileText compiled
  apply @compileText_of_ofTokens schema _ root expression _ meant
  have text_eq : ("(" ++ query ++ ")").toList = '(' :: (query.toList ++ ')' :: []) := by
    simp
  obtain ⟨behind, _, _, group⟩ :=
    assemble_group avoids (@Assembly.agrees_start schema) built []
  rw [ofTokens_scan, text_eq, Assembly.start, group, assemble_nil]
  rfl

/-- Two trees that are joined mean the connective of what each of them means. -/
theorem ofNode_join {left right : Node} {connective : Token} {first second : Expression}
    (isLogic : connective.kind.isLogic = true)
    (meantLeft : Expression.ofNode schema left = .ok first)
    (meantRight : Expression.ofNode schema right = .ok second) :
    Expression.ofNode schema (left.join connective right) =
      .ok (.logic connective.kind.toLogic [first, second]) := by
  rw [Node.join, Expression.ofNode, Token.toLogic_of_isLogic isLogic]
  simp [Expression.ofNodes, meantLeft, meantRight, bind, Except.bind, pure, Except.pure]

/-- Two queries in parentheses are joined by a connective that is found between them. -/
theorem compileText_join (avoids : schema.NamesAvoidClose) {kind : TokenKind} {keyword : String}
    (matched : ∀ rest, schema.match? (keyword.toList ++ ' ' :: rest) =
      some (kind, keyword.toList.length))
    (isLogic : kind.isLogic = true)
    {left right : String} {first second : Expression}
    (compiledLeft : schema.compileText left = .ok (some first))
    (compiledRight : schema.compileText right = .ok (some second)) :
    schema.compileText ("(" ++ left ++ ") " ++ keyword ++ " (" ++ right ++ ")") =
      .ok (some (.logic kind.toLogic [first, second])) := by
  obtain ⟨leftRoot, builtLeft, meantLeft⟩ := exists_tree_of_compileText compiledLeft
  obtain ⟨rightRoot, builtRight, meantRight⟩ := exists_tree_of_compileText compiledRight
  have connectiveLogic : (Token.ofText kind keyword).kind.isLogic = true := isLogic
  refine compileText_of_ofTokens ?_ (ofNode_join connectiveLogic meantLeft meantRight)
  have text_eq : ("(" ++ left ++ ") " ++ keyword ++ " (" ++ right ++ ")").toList =
      '(' :: (left.toList ++ ')' ::
        (' ' :: (keyword.toList ++ ' ' :: ('(' :: (right.toList ++ ')' :: []))))) := by
    simp
  obtain ⟨behindLeft, notSpace, leftAgrees, leftGroup⟩ :=
    assemble_group avoids (@Assembly.agrees_start schema) builtLeft
      (' ' :: (keyword.toList ++ ' ' :: ('(' :: (right.toList ++ ')' :: []))))
  obtain ⟨behindConnective, connectiveAgrees, connected⟩ :=
    leftAgrees.assemble_connective rfl notSpace isLogic (matched _)
  obtain ⟨behindRight, _, _, rightGroup⟩ := assemble_group avoids connectiveAgrees builtRight []
  rw [ofTokens_scan, text_eq, Assembly.start, leftGroup, connected, rightGroup, assemble_nil]
  rfl

/-- Queries that compile can be put in parentheses and joined by connectives, unless a name has a
closing parenthesis in it. -/
theorem compileText_compose (avoids : schema.NamesAvoidClose) {left right : String}
    {first second : Expression} (compiledLeft : schema.compileText left = .ok (some first))
    (compiledRight : schema.compileText right = .ok (some second)) :
    schema.compileText ("(" ++ left ++ ")") = .ok (some first) ∧
      schema.compileText ("(" ++ left ++ ") and (" ++ right ++ ")") =
        .ok (some (.logic .and [first, second])) ∧
      schema.compileText ("(" ++ left ++ ") or (" ++ right ++ ")") =
        .ok (some (.logic .or [first, second])) := by
  have breaks (rest : List Char) : Character.BreaksWord (' ' :: rest) :=
    Character.breaksWord_cons.mpr (by decide)
  have and_eq : "(" ++ left ++ ") and (" ++ right ++ ")" =
      "(" ++ left ++ ") " ++ "and" ++ " (" ++ right ++ ")" :=
    String.toList_inj.mp (by simp)
  have or_eq : "(" ++ left ++ ") or (" ++ right ++ ")" =
      "(" ++ left ++ ") " ++ "or" ++ " (" ++ right ++ ")" :=
    String.toList_inj.mp (by simp)
  rw [and_eq, or_eq]
  have joinedByAnd := compileText_join avoids (fun rest => schema.match?_and (breaks rest)) rfl
    compiledLeft compiledRight
  have joinedByOr := compileText_join avoids (fun rest => schema.match?_or (breaks rest)) rfl
    compiledLeft compiledRight
  exact ⟨compileText_group avoids compiledLeft, joinedByAnd, joinedByOr⟩

/-- A query that ends in a list, with a closing parenthesis between quotes. -/
def tripTitles : String :=
  "(start blank) or Trip Title in new, ')', x"

theorem compileText_compose_trip :
    Source.tripSchema.NamesAvoidClose ∧
      ∃ first second,
        Source.tripSchema.compileText tripTitles = .ok (some first) ∧
        Source.tripSchema.compileText "start < 2024-02-29" = .ok (some second) ∧
        Source.tripSchema.compileText ("(" ++ tripTitles ++ ")") = .ok (some first) ∧
        Source.tripSchema.compileText ("(" ++ tripTitles ++ ") and (" ++ "start < 2024-02-29" ++
          ")") = .ok (some (.logic .and [first, second])) ∧
        Source.tripSchema.compileText ("(" ++ tripTitles ++ ") or (" ++ "start < 2024-02-29" ++
          ")") = .ok (some (.logic .or [first, second])) := by
  have avoids : Source.tripSchema.NamesAvoidClose := by
    unfold NamesAvoidClose
    decide
  obtain ⟨first, compiledFirst⟩ := Source.exists_of_isSome_compile Source.tripSchema
    (.written .text tripTitles) (by decide +kernel)
  obtain ⟨second, compiledSecond⟩ := Source.exists_of_isSome_compile Source.tripSchema
    (.written .text "start < 2024-02-29") (by decide +kernel)
  exact ⟨avoids, first, second, compiledFirst, compiledSecond,
    compileText_compose avoids compiledFirst compiledSecond⟩

end Schema

end FilterQuery
