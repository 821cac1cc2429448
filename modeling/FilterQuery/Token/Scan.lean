import FilterQuery.Token.Classify

/-!
# Scanning a text query

A text is cut into pieces from the left.  A piece is what the pattern table matches, or a single
blank, or else a run of characters without blanks together with one space behind it.  Scanning
never fails: a piece that is not acceptable becomes an invalid token and scanning goes on.
-/

namespace FilterQuery

/-- A piece at the start of a text: the kind it suggests, the text of its token, and how many
characters it covers. -/
structure Piece where
  kind : TokenKind
  raw : List Char
  width : Nat

namespace Piece

/-- A piece whose token has all of its text. -/
def whole (kind : TokenKind) (width : Nat) (text : List Char) : Piece :=
  ⟨kind, text.take width, width⟩

/-- The run of characters without blanks at the start of a text.  It covers a space behind it. -/
def unknown (text : List Char) : Piece :=
  let run := text.takeWhile fun c => !Character.isBlank c
  ⟨.invalid, run, if text[run.length]? = some ' ' then run.length + 1 else run.length⟩

end Piece

namespace Schema

/-- The piece at the start of a text that begins with a given character. -/
def piece (schema : Schema) (first : Char) (rest : List Char) : Piece :=
  match schema.match? (first :: rest) with
  | some (kind, width) => .whole kind width (first :: rest)
  | none =>
      if Character.isBlank first then .whole .space 1 (first :: rest)
      else .unknown (first :: rest)

theorem width_ne_zero_of_match? {schema : Schema} {text : List Char} {kind : TokenKind}
    {width : Nat} (found : schema.match? text = some (kind, width)) : width ≠ 0 := by
  unfold match? Lexicon.firstMatch? at found
  obtain ⟨_, pattern, _, _, matched, _⟩ := List.findSome?_eq_some_iff.mp found
  obtain ⟨_, admitted, same⟩ := Option.map_eq_some_iff.mp matched
  have positive := (Option.filter_eq_some_iff.mp admitted).2
  simp_all

/-- Every piece covers at least one character. -/
theorem width_piece_pos (schema : Schema) (first : Char) (rest : List Char) :
    0 < (schema.piece first rest).width := by
  unfold piece
  split
  · next found => exact Nat.pos_of_ne_zero (width_ne_zero_of_match? found)
  · split
    · exact Nat.one_pos
    · next visible =>
        simp only [Piece.unknown, List.takeWhile_cons, visible, Bool.not_false, if_true]
        split <;> simp

/-- The tokens of a text behind a context. -/
def scanFrom (schema : Schema) (context : Context) : List Char → List Token
  | [] => []
  | first :: rest =>
      let piece := schema.piece first rest
      let remainder := (first :: rest).drop piece.width
      match schema.classify context piece.kind (String.ofList piece.raw) with
      | some token => token :: scanFrom schema (context.push schema token) remainder
      | none => scanFrom schema context remainder
termination_by text => text.length
decreasing_by
  all_goals
    have positive := schema.width_piece_pos first rest
    simp only [List.length_drop, List.length_cons]
    omega

/-- The tokens of a text query. -/
def scan (schema : Schema) (text : String) : List Token :=
  schema.scanFrom Context.start text.toList

end Schema

end FilterQuery
