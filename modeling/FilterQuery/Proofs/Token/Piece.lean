import FilterQuery.Node.ArrayForm
import FilterQuery.Proofs.Lexicon.Spelling
import FilterQuery.Proofs.Token.History
import FilterQuery.Token.Scan

/-!
# Pieces of a text query

Where the pattern table finds a piece of a text query and no word goes on behind it, scanning yields
the token that the piece has when it is classified alone in the same context.  A blank and a comma
between two pieces become tokens of their own.
-/

namespace FilterQuery

open Character Lexicon

/-- The token of a blank between two pieces. -/
def Token.blank : Token :=
  ofText .space " "

theorem breaksWord_blank (rest : String) : BreaksWord (" " ++ rest).toList := by
  rw [String.toList_append]
  exact breaksWord_cons.mpr (by decide)

theorem breaksWord_comma (rest : String) : BreaksWord (", " ++ rest).toList := by
  rw [String.toList_append]
  exact breaksWord_cons.mpr (by decide)

namespace Schema

variable {schema : Schema}

/-- The pattern table finds exactly a piece at the start of what is left of a text. -/
def Finds (schema : Schema) (piece rest : String) : Prop :=
  (schema.find? (piece ++ rest)).map (·.2) = some piece

/-- A text is a piece when the pattern table finds all of it, and not as a space. -/
def IsPiece (schema : Schema) (raw : String) : Prop :=
  ∃ kind, kind ≠ .space ∧ schema.findExact? raw = some kind

/-- The token of a text that is classified as a whole. -/
def wholeToken (schema : Schema) (context : Context) (raw : String) : Token :=
  ((schema.findExact? raw).bind fun kind => schema.classify context kind raw).getD
    (Token.invalid raw)

/-- The token of a comma between two pieces. -/
def separatorToken (schema : Schema) (context : Context) : Token :=
  (schema.classify context .comma ",").getD (Token.invalid ",")

/-- What is found at the start of a text is matched there with its own length. -/
theorem match?_of_find? {kind : TokenKind} {piece rest : String}
    (found : schema.find? (piece ++ rest) = some (kind, piece)) :
    schema.match? (piece.toList ++ rest.toList) = some (kind, piece.toList.length) := by
  rw [find?, String.toList_append, Option.map_eq_some_iff] at found
  rcases found with ⟨⟨_, width⟩, matched, covered⟩
  rw [Prod.mk.injEq] at covered
  rcases covered with ⟨rfl, covered⟩
  have within := width_le_of_match? matched
  have width_eq := congrArg (fun text => text.toList.length) covered
  simp only [String.toList_ofList, List.length_take, Nat.min_eq_left within] at width_eq
  rw [matched, width_eq]

/-- What is found whole is found exactly. -/
theorem findExact?_of_find? {text : String} {kind : TokenKind}
    (found : schema.find? text = some (kind, text)) : schema.findExact? text = some kind := by
  have matched := @match?_of_find? schema kind text "" (by rwa [String.append_empty])
  rw [findExact?_eq_some_iff]
  simpa using matched

/-- What is matched at the start of a text is found there as the piece of its length. -/
theorem find?_of_match? {kind : TokenKind} {piece rest : String}
    (matched : schema.match? (piece.toList ++ rest.toList) = some (kind, piece.toList.length)) :
    schema.find? (piece ++ rest) = some (kind, piece) := by
  have taken : (piece.toList ++ rest.toList).take piece.toList.length = piece.toList :=
    List.take_left
  rw [find?, String.toList_append, matched]
  simp only [Option.map_some, taken, String.ofList_toList]

theorem Finds.match?_eq {piece rest : String} (finds : schema.Finds piece rest) :
    ∃ kind first text, piece.toList = first :: text ∧
      schema.match? (first :: text ++ rest.toList) = some (kind, (first :: text).length) := by
  rcases Option.map_eq_some_iff.mp finds with ⟨⟨kind, found⟩, matched, rfl⟩
  have whole := match?_of_find? matched
  cases shape : found.toList with
  | nil =>
      rw [shape] at whole
      exact absurd rfl (width_ne_zero_of_match? whole)
  | cons first text =>
      rw [shape] at whole
      exact ⟨kind, first, text, rfl, whole⟩

/-- A piece stands alone as well as in front of a text that does not go on with a word. -/
theorem Finds.isPiece {piece rest : String} (finds : schema.Finds piece rest)
    (breaks : BreaksWord rest.toList) : schema.IsPiece piece := by
  rcases finds.match?_eq with ⟨kind, first, text, shape, matched⟩
  have alone := match?_cut breaks matched
  refine ⟨kind, kind_ne_space_of_match? alone, ?_⟩
  rw [findExact?_eq_some_iff, shape]
  exact alone

/-- Only a space has no token or the token of a space. -/
theorem classify_visible (context : Context) {kind : TokenKind} (raw : String)
    (visible : kind ≠ .space) :
    ∃ token, schema.classify context kind raw = some token ∧ token.kind ≠ .space := by
  have asField : (schema.fieldToken raw).kind ≠ .space := by
    unfold fieldToken
    split <;> exact TokenKind.noConfusion
  have asValue : (context.valueToken raw).kind ≠ .space := by
    unfold Context.valueToken
    repeat' split
    all_goals exact TokenKind.noConfusion
  have conditional (acceptable : Bool) :
      (Token.acceptedIf acceptable kind raw).kind ≠ .space := by
    cases acceptable with
    | false => exact TokenKind.noConfusion
    | true => exact visible
  cases kind with
  | space => contradiction
  | invalid => exact ⟨_, rfl, TokenKind.noConfusion⟩
  | field | literal | noOperand | value _ =>
      simp only [classify]
      repeat' split
      all_goals first
        | exact ⟨_, rfl, asField⟩
        | exact ⟨_, rfl, asValue⟩
        | exact ⟨_, rfl, TokenKind.noConfusion⟩
  | _ => exact ⟨_, rfl, conditional _⟩

theorem IsPiece.classify_eq {raw : String} (piece : schema.IsPiece raw) (context : Context) :
    ∃ kind, schema.findExact? raw = some kind ∧ kind ≠ .space ∧
      schema.classify context kind raw = some (schema.wholeToken context raw) := by
  rcases piece with ⟨kind, visible, found⟩
  obtain ⟨token, classified, _⟩ := schema.classify_visible context raw visible
  refine ⟨kind, found, visible, ?_⟩
  rw [wholeToken, found, Option.bind_some, classified, Option.getD_some]

theorem IsPiece.visible {raw : String} (piece : schema.IsPiece raw) (context : Context) :
    (schema.wholeToken context raw).kind ≠ .space := by
  obtain ⟨kind, _, visible, classified⟩ := piece.classify_eq context
  obtain ⟨token, same, tokenVisible⟩ := schema.classify_visible context raw visible
  rw [classified] at same
  cases same
  exact tokenVisible

theorem visible_separatorToken (context : Context) :
    (schema.separatorToken context).kind ≠ .space := by
  rcases schema.classify_visible context "," (by decide : TokenKind.comma ≠ .space) with
    ⟨token, classified, visible⟩
  rw [separatorToken, classified]
  exact visible

/-- What becomes of a text does not depend on a space before it, unless it is a space itself. -/
theorem classify_last (context : Context) (mark : Option TokenKind) {kind : TokenKind}
    (raw : String) (visible : kind ≠ .space) :
    schema.classify { context with last := mark } kind raw = schema.classify context kind raw := by
  cases kind with
  | space => contradiction
  | _ => rfl

/-- A blank before a piece does not change what the piece is. -/
theorem IsPiece.wholeToken_push_blank {raw : String} (piece : schema.IsPiece raw)
    (context : Context) :
    schema.wholeToken (context.push schema Token.blank) raw = schema.wholeToken context raw := by
  rcases piece with ⟨kind, visible, found⟩
  rw [wholeToken, wholeToken, found, Option.bind_some, Option.bind_some]
  have same := @classify_last schema context (some .space) _ raw visible
  exact congrArg (Option.getD · (Token.invalid raw)) same

/-- Only the latest token of all is remembered together with its spaces. -/
theorem push_last (context : Context) (mark : Option TokenKind) {token : Token}
    (visible : token.kind ≠ .space) :
    Context.push schema { context with last := mark } token = context.push schema token := by
  rw [Context.push_visible schema _ visible, Context.push_visible schema _ visible]
  cases shape : token.kind <;> simp only [Context.advance, shape]

/-- Only the latest token of all remembers a blank. -/
theorem push_blank_push (context : Context) {token : Token} (visible : token.kind ≠ .space) :
    (context.push schema Token.blank).push schema token = context.push schema token :=
  push_last context (some .space) visible

/-- Behind a visible token the latest token is no space. -/
theorem last_push_ne_space (context : Context) {token : Token} (visible : token.kind ≠ .space) :
    (context.push schema token).last ≠ some .space := by
  rw [Context.last_push]
  exact fun same => visible (Option.some.inj same)

/-- What is matched at the start of a text is a piece with its own length. -/
theorem piece_of_match? {kind : TokenKind} {first : Char} {text rest : List Char}
    (matched : schema.match? (first :: text ++ rest) = some (kind, (first :: text).length)) :
    schema.piece first (text ++ rest) = ⟨kind, first :: text, (first :: text).length⟩ := by
  rw [piece, ← List.cons_append, matched]
  simp [Piece.whole]

/-- A blank at the start of a text is a piece of its own. -/
theorem piece_blank {first : Char} (rest : List Char) (blank : isBlank first = true) :
    schema.piece first rest = ⟨.space, [first], 1⟩ := by
  rw [piece, match?_blank rest blank, if_pos blank]
  rfl

/-- Only a blank is a piece that suggests a space. -/
theorem kind_piece_ne_space {first : Char} (rest : List Char) (visible : isBlank first = false) :
    (schema.piece first rest).kind ≠ .space := by
  rw [piece]
  split
  · next matched => exact kind_ne_space_of_match? matched
  · rw [if_neg (by simp [visible])]
    exact TokenKind.noConfusion

theorem scanFrom_nil (context : Context) : schema.scanFrom context [] = [] := by
  rw [scanFrom]

/-- Scanning what is matched at the start of a text yields its token, whatever comes behind. -/
theorem scanFrom_of_match? {context : Context} {kind : TokenKind} {piece rest : List Char}
    {token : Token} (matched : schema.match? (piece ++ rest) = some (kind, piece.length))
    (classified : schema.classify context kind (String.ofList piece) = some token) :
    schema.scanFrom context (piece ++ rest) =
      token :: schema.scanFrom (context.push schema token) rest := by
  cases piece with
  | nil => exact absurd rfl (width_ne_zero_of_match? matched)
  | cons first text =>
      rw [List.cons_append, scanFrom]
      simp only [piece_of_match? matched, classified, ← List.cons_append, List.drop_left]

/-- Scanning a piece yields its token. -/
theorem scanFrom_piece (context : Context) {piece rest : String} (finds : schema.Finds piece rest)
    (breaks : BreaksWord rest.toList) :
    schema.scanFrom context (piece ++ rest).toList =
      schema.wholeToken context piece ::
        schema.scanFrom (context.push schema (schema.wholeToken context piece)) rest.toList := by
  rcases finds.match?_eq with ⟨kind, first, text, shape, matched⟩
  have alone := match?_cut breaks matched
  have whole : String.ofList (first :: text) = piece := by rw [← shape, String.ofList_toList]
  have exact_kind : schema.findExact? piece = some kind := by
    rw [findExact?_eq_some_iff, shape]
    exact alone
  obtain ⟨_, found, _, classified⟩ := (finds.isPiece breaks).classify_eq context
  rw [exact_kind] at found
  cases found
  rw [← whole] at classified
  rw [String.toList_append, shape, ← whole]
  exact scanFrom_of_match? matched classified

/-- Scanning a blank that does not follow another one yields its token. -/
theorem scanFrom_blank {context : Context} (rest : List Char)
    (first : context.last ≠ some .space) :
    schema.scanFrom context (' ' :: rest) =
      Token.blank :: schema.scanFrom (context.push schema Token.blank) rest := by
  rw [scanFrom, piece_blank rest (by decide)]
  simp only [classify, if_neg first]
  rfl

/-- Scanning a comma yields its token. -/
theorem scanFrom_comma (context : Context) (rest : List Char) :
    schema.scanFrom context (',' :: rest) =
      schema.separatorToken context :: schema.scanFrom (schema.separate context) rest := by
  have matched : schema.match? ([','] ++ rest) = some (.comma, 1) := schema.match?_comma rest
  exact scanFrom_of_match? matched rfl

/-- Scanning a blank and a piece behind it yields the token of the piece. -/
theorem scanFrom_blank_piece {context : Context} {piece rest : String}
    (first : context.last ≠ some .space) (finds : schema.Finds piece rest)
    (breaks : BreaksWord rest.toList) :
    schema.scanFrom context (' ' :: (piece ++ rest).toList) =
      Token.blank :: schema.wholeToken context piece ::
        schema.scanFrom (context.push schema (schema.wholeToken context piece)) rest.toList := by
  have isPiece := finds.isPiece breaks
  rw [scanFrom_blank _ first, scanFrom_piece _ finds breaks, isPiece.wholeToken_push_blank,
    push_blank_push _ (isPiece.visible context)]

end Schema

end FilterQuery
