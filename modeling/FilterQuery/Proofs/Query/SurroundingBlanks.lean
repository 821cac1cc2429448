import FilterQuery.CommandLine.Run
import FilterQuery.Proofs.Expression.WellTyped
import FilterQuery.Proofs.Lexicon.Blank
import FilterQuery.Proofs.Node.Grammar
import FilterQuery.Proofs.Query.TextAgreement
import FilterQuery.Proofs.Query.TextPieces
import FilterQuery.Proofs.Token.Piece

/-!
# Blanks around a text query

Blanks before or behind a text query are pieces of their own, or are swallowed by a piece that no
pattern matches.  They leave every other piece as it is, and what the pieces become does not depend
on spaces between them.  So blanks around a query change neither its expression nor its error.
-/

namespace FilterQuery

open Character Lexicon

/-! ## Spaces between tokens -/

theorem validateTokens_visibleTokens (tokens : List Token) :
    validateTokens (visibleTokens tokens) = validateTokens tokens := by
  have invalid : firstInvalid? (visibleTokens tokens) = firstInvalid? tokens := by
    rw [firstInvalid?, firstInvalid?, visibleTokens, List.find?_filter]
    congr 1
    funext token
    cases shape : token.kind <;> simp [Token.isInvalid, shape]
  have count {kind : TokenKind} (visible : kind ≠ .space) :
      countKind kind (visibleTokens tokens) = countKind kind tokens := by
    rw [countKind, countKind, visibleTokens, List.countP_filter]
    congr 1
    funext token
    by_cases same : token.kind = kind
    · simp [same, visible]
    · simp [same]
  have last : lastVisible? (visibleTokens tokens) = lastVisible? tokens := by
    rw [lastVisible?, lastVisible?, visibleTokens, ← List.filter_reverse, List.find?_filter]
    congr 1
    funext token
    simp only [and_self, Bool.decide_eq_true]
  rw [validateTokens, validateTokens, invalid, count TokenKind.noConfusion,
    count TokenKind.noConfusion, validateEnd, validateEnd, last]

theorem Node.ofTokens_visibleTokens (tokens : List Token) :
    Node.ofTokens (visibleTokens tokens) = Node.ofTokens tokens := by
  rw [ofTokens, ofTokens, Assembly.foldlM_visibleTokens]

/-- The candidates that are not spaces. -/
def visibleCandidates (candidates : List (TokenKind × String)) : List (TokenKind × String) :=
  candidates.filter (·.1 != .space)

namespace Schema

variable {schema : Schema}

/-- The tokens of candidates are those of the candidates without spaces, but for spaces. -/
theorem visibleTokens_classifyEach (context : Context) (mark : Option TokenKind)
    (candidates : List (TokenKind × String)) :
    visibleTokens (schema.classifyEach { context with last := mark } candidates) =
      schema.classifyEach context (visibleCandidates candidates) := by
  induction candidates generalizing context mark with
  | nil => rfl
  | cons candidate rest ih =>
      obtain ⟨kind, raw⟩ := candidate
      rw [classifyEach]
      by_cases isSpace : kind = .space
      · have dropped : visibleCandidates ((kind, raw) :: rest) = visibleCandidates rest := by
          simp [visibleCandidates, isSpace]
        rw [dropped]
        split
        · next token classified =>
            have tokenSpace : token.kind = .space := by
              rw [isSpace, classify, Option.ite_none_left_eq_some] at classified
              cases classified.2
              rfl
            rw [visibleTokens_cons, if_pos tokenSpace, Context.push_space schema _ tokenSpace]
            exact ih context (some .space)
        · exact ih context mark
      · have kept : visibleCandidates ((kind, raw) :: rest) =
            (kind, raw) :: visibleCandidates rest := by
          simp [visibleCandidates, isSpace]
        obtain ⟨token, classified, visible⟩ := schema.classify_visible context raw isSpace
        rw [kept, classifyEach, classify_last context mark raw isSpace, classified]
        simp only
        rw [visibleTokens_cons, if_neg visible, push_last context mark visible]
        exact congrArg (token :: ·) (ih (context.push schema token) _)

/-! ## Pieces -/

theorem pieces_blank {first : Char} (rest : List Char) (blank : isBlank first = true) :
    schema.pieces (first :: rest) = (.space, String.ofList [first]) :: schema.pieces rest := by
  rw [pieces, piece_blank rest blank]
  rfl

/-- Blanks before a text are spaces. -/
theorem visible_pieces_blanks_append {blanks : List Char} (text : List Char)
    (blank : ∀ c ∈ blanks, isBlank c = true) :
    visibleCandidates (schema.pieces (blanks ++ text)) = visibleCandidates (schema.pieces text) := by
  induction blanks with
  | nil => rfl
  | cons c blanks ih =>
      obtain ⟨isBlank_c, othersBlank⟩ := List.forall_mem_cons.mp blank
      rw [List.cons_append, pieces_blank _ isBlank_c, ← ih othersBlank]
      rfl

/-- Blanks behind a text are no part of an unknown piece, but one may be covered by it. -/
theorem unknown_append_blanks (text : List Char) {blanks : List Char}
    (blank : ∀ c ∈ blanks, isBlank c = true) :
    (Piece.unknown (text ++ blanks)).raw = (Piece.unknown text).raw ∧
      ∃ left, (∀ c ∈ left, isBlank c = true) ∧
        (text ++ blanks).drop (Piece.unknown (text ++ blanks)).width =
          text.drop (Piece.unknown text).width ++ left := by
  have none_behind : (blanks.takeWhile fun c => !isBlank c) = [] := by
    cases blanks with
    | nil => rfl
    | cons c blanks => simp [blank c List.mem_cons_self]
  have run_eq : ((text ++ blanks).takeWhile fun c => !isBlank c) =
      text.takeWhile fun c => !isBlank c := takeWhile_append_of_stop none_behind
  have within := (List.takeWhile_prefix (l := text) fun c => !isBlank c).length_le
  refine ⟨run_eq, ?_⟩
  simp only [Piece.unknown, run_eq]
  generalize (text.takeWhile fun c => !isBlank c).length = width at *
  rcases Nat.lt_or_eq_of_le within with inside | atEnd
  · rw [List.getElem?_append_left inside]
    refine ⟨blanks, blank, List.drop_append_of_le_length ?_⟩
    split <;> omega
  · have noSpace : ¬ text[width]? = some ' ' := by simp [atEnd]
    rw [if_neg noSpace, atEnd, List.getElem?_append_right (Nat.le_refl _), Nat.sub_self,
      List.drop_length]
    split
    · exact ⟨blanks.drop 1, fun c member => blank c (List.mem_of_mem_drop member), by simp⟩
    · exact ⟨blanks, blank, List.drop_left⟩

/-- Blanks behind a text leave its first piece as it is, and at most one of them is covered by it. -/
theorem piece_append_blanks (visible : schema.NamesEndVisibly) (first : Char) (text : List Char)
    {blanks : List Char} (blank : ∀ c ∈ blanks, isBlank c = true) :
    (schema.piece first (text ++ blanks)).kind = (schema.piece first text).kind ∧
      (schema.piece first (text ++ blanks)).raw = (schema.piece first text).raw ∧
      ∃ left, (∀ c ∈ left, isBlank c = true) ∧
        (first :: (text ++ blanks)).drop (schema.piece first (text ++ blanks)).width =
          (first :: text).drop (schema.piece first text).width ++ left := by
  have same := match?_append_blanks visible first text blank
  have whole {kind : TokenKind} {width : Nat} (within : width ≤ (first :: text).length) :
      Piece.whole kind width (first :: text ++ blanks) = Piece.whole kind width (first :: text) := by
    rw [Piece.whole, Piece.whole, List.take_append_of_le_length within]
  rw [piece, piece, ← List.cons_append, same]
  cases matched : schema.match? (first :: text) with
  | some found =>
      obtain ⟨kind, width⟩ := found
      have within := width_le_of_match? matched
      refine ⟨rfl, ?_, blanks, blank, List.drop_append_of_le_length within⟩
      exact congrArg Piece.raw (whole within)
  | none =>
      by_cases firstBlank : isBlank first = true
      · simp only [if_pos firstBlank]
        exact ⟨rfl, rfl, blanks, blank, rfl⟩
      · simp only [if_neg firstBlank]
        obtain ⟨raw_eq, behind⟩ := unknown_append_blanks (first :: text) blank
        exact ⟨rfl, raw_eq, behind⟩

/-- Blanks behind a text are spaces, or swallowed. -/
theorem visible_pieces_append_blanks (visible : schema.NamesEndVisibly) (text blanks : List Char)
    (blank : ∀ c ∈ blanks, isBlank c = true) :
    visibleCandidates (schema.pieces (text ++ blanks)) = visibleCandidates (schema.pieces text) := by
  induction text using Schema.pieces.induct schema generalizing blanks with
  | case1 =>
      have nothing := @visible_pieces_blanks_append schema blanks [] blank
      rw [List.append_nil] at nothing
      rw [List.nil_append, nothing]
  | case2 first rest piece ih =>
      obtain ⟨kind_eq, raw_eq, left, leftBlank, behind⟩ :=
        piece_append_blanks visible first rest blank
      have others := ih left leftBlank
      rw [List.cons_append, pieces, pieces, behind, kind_eq, raw_eq]
      simp only [visibleCandidates, List.filter_cons] at others ⊢
      rw [others]

/-! ## Queries -/

theorem visibleTokens_scan (text : String) :
    visibleTokens (schema.scan text) =
      schema.classifyEach Context.start (visibleCandidates (schema.pieces text.toList)) := by
  rw [scan, scanFrom_eq_classifyEach]
  exact visibleTokens_classifyEach Context.start none _

theorem visibleTokens_scan_between_blanks (visible : schema.NamesEndVisibly) (query : String)
    {front back : String} (frontBlank : ∀ c ∈ front.toList, isBlank c = true)
    (backBlank : ∀ c ∈ back.toList, isBlank c = true) :
    visibleTokens (schema.scan (front ++ query ++ back)) = visibleTokens (schema.scan query) := by
  rw [visibleTokens_scan, visibleTokens_scan, String.toList_append, String.toList_append,
    visible_pieces_append_blanks visible _ _ backBlank,
    visible_pieces_blanks_append _ frontBlank]

/-- A text query compiles and is validated by its visible tokens. -/
theorem results_of_visibleTokens {text other : String}
    (same : visibleTokens (schema.scan text) = visibleTokens (schema.scan other)) :
    schema.compileText text = schema.compileText other ∧
      schema.validateText text = schema.validateText other := by
  constructor
  · rw [compileText, compileText, ← Node.ofTokens_visibleTokens, same, Node.ofTokens_visibleTokens]
  · rw [validateText, validateText, ← validateTokens_visibleTokens, same,
      validateTokens_visibleTokens]

end Schema

/-- What is trimmed off the end of a text are blanks. -/
theorem CommandLine.exists_blanks_of_trimEnd (text : String) :
    ∃ blanks : String, (∀ c ∈ blanks.toList, isBlank c = true) ∧ text = trimEnd text ++ blanks := by
  refine ⟨String.ofList (text.toList.reverse.takeWhile isBlank).reverse, ?_, ?_⟩
  · intro c member
    rw [String.toList_ofList, List.mem_reverse] at member
    exact List.all_eq_true.mp List.all_takeWhile c member
  · rw [trimEnd, ← String.ofList_append, ← List.reverse_append, List.takeWhile_append_dropWhile,
      List.reverse_reverse, String.ofList_toList]

namespace Schema

variable {schema : Schema}

/-- Blanks around a text query change neither its expression nor its error, and nor does trimming
its end. -/
theorem text_between_blanks (visible : schema.NamesEndVisibly) (query : String)
    {front back : String} (frontBlank : ∀ c ∈ front.toList, isBlank c = true)
    (backBlank : ∀ c ∈ back.toList, isBlank c = true) :
    (schema.compileText (front ++ query ++ back) = schema.compileText query ∧
        schema.validateText (front ++ query ++ back) = schema.validateText query) ∧
      schema.compileText (CommandLine.trimEnd query) = schema.compileText query ∧
        schema.validateText (CommandLine.trimEnd query) = schema.validateText query := by
  constructor
  · exact results_of_visibleTokens
      (visibleTokens_scan_between_blanks visible query frontBlank backBlank)
  · obtain ⟨blanks, blank, query_eq⟩ := CommandLine.exists_blanks_of_trimEnd query
    have same := @visibleTokens_scan_between_blanks schema visible (CommandLine.trimEnd query) ""
      blanks (by simp) blank
    rw [String.empty_append, ← query_eq] at same
    exact results_of_visibleTokens same.symm

/-- A schema with a name of two words. -/
def openingSchema : Schema :=
  ⟨[⟨"opens at", "Opening", .single .dateTime, [.compare .notEqual], []⟩]⟩

/-- A query with a line end behind it. -/
def openingQuery : String :=
  "opens at not equal 2025-01-30 09:30\n"

/-- What the query means. -/
def openingTest : Condition :=
  ⟨.single .dateTime, "opens at", .compare .notEqual,
    .dateTime ⟨⟨2025, 1, 30, by decide, by decide, by decide⟩, 9, 30, 0, by decide, by decide,
      by decide⟩⟩

theorem text_between_blanks_opening :
    (openingSchema.NamesEndVisibly ∧ (∀ c ∈ "\t\n".toList, isBlank c = true) ∧
        ∀ c ∈ "\u3000 ".toList, isBlank c = true) ∧
      ∃ expression : Expression, expression.equals (.condition openingTest) = true ∧
        (openingSchema.compileText openingQuery = .ok (some expression) ∧
          openingSchema.validateText openingQuery = .ok ()) ∧
        (openingSchema.compileText ("\t\n" ++ openingQuery ++ "\u3000 ") = .ok (some expression) ∧
          openingSchema.validateText ("\t\n" ++ openingQuery ++ "\u3000 ") = .ok ()) ∧
        openingSchema.compileText (CommandLine.trimEnd openingQuery) = .ok (some expression) ∧
          openingSchema.validateText (CommandLine.trimEnd openingQuery) = .ok () := by
  have visible : openingSchema.NamesEndVisibly := by
    unfold NamesEndVisibly
    decide
  have frontBlank : ∀ c ∈ "\t\n".toList, isBlank c = true :=
    List.all_eq_true.mp (by decide)
  have backBlank : ∀ c ∈ "\u3000 ".toList, isBlank c = true :=
    List.all_eq_true.mp (by decide)
  obtain ⟨expression, compiled, means⟩ := @Source.exists_of_any_compile openingSchema
    (.written .text openingQuery) (·.equals (.condition openingTest)) (by decide +kernel)
  replace compiled : openingSchema.compileText openingQuery = .ok (some expression) := compiled
  have valid : openingSchema.validateText openingQuery = .ok () :=
    (validateText_eq_ok_iff _ _).mpr ((compileText_eq_ok_iff _ _).mp ⟨_, compiled⟩)
  have same := text_between_blanks visible openingQuery frontBlank backBlank
  rw [compiled, valid] at same
  exact ⟨⟨visible, frontBlank, backBlank⟩, expression, means, ⟨compiled, valid⟩, same⟩

end Schema

end FilterQuery
