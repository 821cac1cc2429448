import FilterQuery.Proofs.Token.Piece
import Mathlib.Data.List.Chain

/-!
# Scanning as a loop

Scanning goes through a text turn by turn.  A turn cuts a slice off what is left of the text and
emits at most one token, so the slices make up the whole text, and the loop ends.  Only a slice of
blanks behind a space emits nothing, and so no two spaces stand side by side.
-/

namespace FilterQuery

/-- Where scanning stands: what is left of the text, and what has become of the text before. -/
structure Scanner where
  rest : List Char
  context : Context
  /-- The tokens emitted so far. -/
  tokens : List Token

/-- What comes of a turn: the slice that it cuts off the text, and the token that it emits for the
slice, if it does. -/
structure Cut where
  slice : List Char
  emitted : Option Token

namespace Cut

/-- Whether a slice consists of blanks. -/
def isBlank (cut : Cut) : Bool :=
  cut.slice.all Character.isBlank

/-- The text that is cut, slice by slice. -/
def text (cuts : List Cut) : List Char :=
  cuts.flatMap (·.slice)

/-- The tokens that are emitted, in the order of their slices. -/
def tokens (cuts : List Cut) : List Token :=
  cuts.filterMap (·.emitted)

end Cut

/-- No two spaces stand side by side. -/
def SpacesApart (tokens : List Token) : Prop :=
  tokens.IsChain fun left right => ¬ (left.kind = .space ∧ right.kind = .space)

namespace Scanner

/-- The loop before its first turn. -/
def start (text : String) : Scanner :=
  ⟨text.toList, Context.start, []⟩

/-- The loop with another rest of the text, behind a token if one is emitted. -/
def behind (schema : Schema) (scanner : Scanner) (rest : List Char) : Option Token → Scanner
  | some token => ⟨rest, scanner.context.push schema token, scanner.tokens ++ [token]⟩
  | none => { scanner with rest }

/-- A turn of the loop.  There is none when nothing is left of the text. -/
def turn? (schema : Schema) (scanner : Scanner) : Option (Cut × Scanner) :=
  match scanner.rest with
  | [] => none
  | first :: rest =>
      let piece := schema.piece first rest
      let emitted := schema.classify scanner.context piece.kind (String.ofList piece.raw)
      some (⟨(first :: rest).take piece.width, emitted⟩,
        scanner.behind schema ((first :: rest).drop piece.width) emitted)

/-- Turns of the loop one after another, with what comes of each. -/
inductive Turns (schema : Schema) : Scanner → List Cut → Scanner → Prop
  | nil (scanner : Scanner) : Turns schema scanner [] scanner
  | cons {scanner next last : Scanner} {cut : Cut} {cuts : List Cut}
      (turned : scanner.turn? schema = some (cut, next)) (others : Turns schema next cuts last) :
      Turns schema scanner (cut :: cuts) last

variable {schema : Schema} {scanner next last : Scanner} {cut : Cut} {cuts : List Cut}

/-! ## One turn -/

@[simp]
theorem rest_behind (rest : List Char) (emitted : Option Token) :
    (scanner.behind schema rest emitted).rest = rest := by
  cases emitted <;> rfl

@[simp]
theorem tokens_behind (rest : List Char) (emitted : Option Token) :
    (scanner.behind schema rest emitted).tokens = scanner.tokens ++ emitted.toList := by
  cases emitted <;> simp [behind]

@[simp]
theorem context_behind (rest : List Char) (emitted : Option Token) :
    (scanner.behind schema rest emitted).context =
      scanner.context.after schema emitted.toList := by
  cases emitted <;> rfl

/-- The loop ends exactly where nothing is left of the text. -/
theorem turn?_eq_none_iff : scanner.turn? schema = none ↔ scanner.rest = [] := by
  rw [turn?]
  split
  · next empty => simp [empty]
  · next more => simp [more]

/-- A blank is cut off alone, for a space. -/
theorem turn?_blank {first : Char} {rest : List Char} (shape : scanner.rest = first :: rest)
    (blank : Character.isBlank first = true) :
    scanner.turn? schema =
      some (⟨[first], schema.classify scanner.context .space (String.ofList [first])⟩,
        scanner.behind schema rest
          (schema.classify scanner.context .space (String.ofList [first]))) := by
  rw [turn?, shape]
  simp only [schema.piece_blank rest blank, List.take_succ_cons, List.take_zero,
    List.drop_succ_cons, List.drop_zero]

/-- Something visible is cut off with a token of its own, which is no space. -/
theorem turn?_visible {first : Char} {rest : List Char} (shape : scanner.rest = first :: rest)
    (visible : Character.isBlank first = false) :
    ∃ more left token, rest = more ++ left ∧ token.kind ≠ .space ∧
      scanner.turn? schema =
        some (⟨first :: more, some token⟩, scanner.behind schema left (some token)) := by
  obtain ⟨token, classified, notSpace⟩ := schema.classify_visible scanner.context
    (String.ofList (schema.piece first rest).raw) (schema.kind_piece_ne_space rest visible)
  obtain ⟨width, width_eq⟩ :=
    Nat.exists_eq_add_one_of_ne_zero (Nat.ne_of_gt (schema.width_piece_pos first rest))
  refine ⟨rest.take width, rest.drop width, token, (List.take_append_drop width rest).symm,
    notSpace, ?_⟩
  rw [turn?, shape]
  simp only [classified, width_eq, List.take_succ_cons, List.drop_succ_cons]

/-- What a turn does to the text and the tokens. -/
structure Advances (schema : Schema) (scanner : Scanner) (cut : Cut) (next : Scanner) : Prop where
  slice_ne_nil : cut.slice ≠ []
  rest : scanner.rest = cut.slice ++ next.rest
  tokens : next.tokens = scanner.tokens ++ cut.emitted.toList
  context : next.context = scanner.context.after schema cut.emitted.toList
  emitted_eq_none_iff :
    cut.emitted = none ↔ cut.isBlank = true ∧ scanner.context.last = some .space
  /-- A space is not emitted behind a space. -/
  space : ∀ token ∈ cut.emitted, token.kind = .space → scanner.context.last ≠ some .space

/-- Every turn cuts something off the text, and emits a token for it unless it is a blank behind a
space. -/
theorem advances_of_turn? (turned : scanner.turn? schema = some (cut, next)) :
    scanner.Advances schema cut next := by
  cases shape : scanner.rest with
  | nil =>
      rw [turn?_eq_none_iff.mpr shape] at turned
      contradiction
  | cons first rest =>
      cases blank : Character.isBlank first with
      | true =>
          rw [turn?_blank shape blank, Option.some.injEq, Prod.mk.injEq] at turned
          obtain ⟨rfl, rfl⟩ := turned
          constructor
          case slice_ne_nil => exact List.cons_ne_nil first []
          case rest => rw [shape, rest_behind, List.singleton_append]
          case tokens => exact tokens_behind rest _
          case context => exact context_behind rest _
          case emitted_eq_none_iff => simp [Schema.classify, Cut.isBlank, blank]
          case space =>
            intro token emitted _
            exact (Option.ite_none_left_eq_some.mp emitted).1
      | false =>
          obtain ⟨more, left, token, rfl, notSpace, turn_eq⟩ :=
            @turn?_visible schema scanner first _ shape blank
          rw [turn_eq, Option.some.injEq, Prod.mk.injEq] at turned
          obtain ⟨rfl, rfl⟩ := turned
          constructor
          case slice_ne_nil => exact List.cons_ne_nil first more
          case rest => rw [shape, rest_behind, List.cons_append]
          case tokens => exact tokens_behind left _
          case context => exact context_behind left _
          case emitted_eq_none_iff => simp [Cut.isBlank, blank]
          case space =>
            rintro _ ⟨⟩ isSpace
            exact absurd isSpace notSpace

/-- A turn takes over the first token of what is left, if there is one for its slice. -/
theorem scanFrom_of_turn? (turned : scanner.turn? schema = some (cut, next)) :
    scanner.tokens ++ schema.scanFrom scanner.context scanner.rest =
      next.tokens ++ schema.scanFrom next.context next.rest := by
  cases shape : scanner.rest with
  | nil =>
      rw [turn?_eq_none_iff.mpr shape] at turned
      contradiction
  | cons first rest =>
      rw [turn?, shape, Option.some.injEq, Prod.mk.injEq] at turned
      obtain ⟨rfl, rfl⟩ := turned
      rw [Schema.scanFrom]
      cases classified : schema.classify scanner.context (schema.piece first rest).kind
          (String.ofList (schema.piece first rest).raw) with
      | none => simp only [behind]
      | some token => simp only [behind, List.append_assoc, List.singleton_append]

/-! ## All turns -/

/-- What holds of the loop before and behind every turn. -/
structure Sound (schema : Schema) (scanner : Scanner) : Prop where
  context : scanner.context = Context.start.after schema scanner.tokens
  spacesApart : SpacesApart scanner.tokens

theorem sound_start (text : String) : (start text).Sound schema :=
  ⟨rfl, List.isChain_nil⟩

theorem Sound.last_eq (sound : scanner.Sound schema) :
    scanner.context.last = scanner.tokens.getLast?.map (·.kind) := by
  rw [sound.context, Context.last_after, Context.start, Option.or_none]

theorem Sound.turn (sound : scanner.Sound schema) (advances : scanner.Advances schema cut next) :
    next.Sound schema where
  context := by rw [advances.context, advances.tokens, sound.context, Context.after_append]
  spacesApart := by
    rw [advances.tokens]
    cases emitted : cut.emitted with
    | none => simpa using sound.spacesApart
    | some token =>
        refine List.isChain_append.mpr ⟨sound.spacesApart, List.isChain_singleton token, ?_⟩
        rintro left isLast _ ⟨⟩ ⟨leftSpace, isSpace⟩
        apply advances.space token emitted isSpace
        rw [sound.last_eq, Option.mem_def.mp isLast, Option.map_some, leftSpace]

namespace Turns

theorem sound (turns : Turns schema scanner cuts last) (sound : scanner.Sound schema) :
    last.Sound schema := by
  induction turns with
  | nil scanner => exact sound
  | cons turned others ih => exact ih (sound.turn (advances_of_turn? turned))

theorem rest (turns : Turns schema scanner cuts last) :
    scanner.rest = Cut.text cuts ++ last.rest := by
  induction turns with
  | nil scanner => rfl
  | cons turned others ih =>
      rw [(advances_of_turn? turned).rest, ih, Cut.text, Cut.text, List.flatMap_cons,
        List.append_assoc]

theorem tokens (turns : Turns schema scanner cuts last) :
    last.tokens = scanner.tokens ++ Cut.tokens cuts := by
  induction turns with
  | nil scanner => exact (List.append_nil _).symm
  | @cons scanner next last cut cuts turned others ih =>
      rw [ih, (advances_of_turn? turned).tokens, List.append_assoc]
      cases emitted : cut.emitted <;> simp [Cut.tokens, emitted]

theorem scanFrom (turns : Turns schema scanner cuts last) :
    scanner.tokens ++ schema.scanFrom scanner.context scanner.rest =
      last.tokens ++ schema.scanFrom last.context last.rest := by
  induction turns with
  | nil scanner => rfl
  | cons turned others ih => rw [scanFrom_of_turn? turned, ih]

theorem slice_ne_nil (turns : Turns schema scanner cuts last) :
    ∀ cut ∈ cuts, cut.slice ≠ [] := by
  induction turns with
  | nil scanner => exact List.forall_mem_nil _
  | cons turned others ih =>
      exact List.forall_mem_cons.mpr ⟨(advances_of_turn? turned).slice_ne_nil, ih⟩

/-- A run of turns can be stopped before any of them. -/
theorem split {before behind : List Cut}
    (turns : Turns schema scanner (before ++ cut :: behind) last) :
    ∃ middle next, Turns schema scanner before middle ∧
      middle.turn? schema = some (cut, next) ∧ Turns schema next behind last := by
  induction before generalizing scanner with
  | nil =>
      cases turns with
      | cons turned others => exact ⟨scanner, _, .nil scanner, turned, others⟩
  | cons earlier before ih =>
      cases turns with
      | cons turned others =>
          obtain ⟨middle, next, front, here, back⟩ := ih others
          exact ⟨middle, next, .cons turned front, here, back⟩

end Turns

/-- The loop ends, wherever it starts. -/
theorem exists_turns (schema : Schema) (scanner : Scanner) :
    ∃ cuts last, Turns schema scanner cuts last ∧ last.turn? schema = none := by
  induction length : scanner.rest.length using Nat.strongRecOn generalizing scanner with
  | _ n ih =>
      cases turn : scanner.turn? schema with
      | none => exact ⟨[], scanner, .nil scanner, turn⟩
      | some result =>
          obtain ⟨cut, next⟩ := result
          have advances := advances_of_turn? turn
          -- A slice is never empty, so every turn leaves less of the text.
          have shorter : next.rest.length < n := by
            have positive := List.length_pos_iff.mpr advances.slice_ne_nil
            rw [← length, advances.rest, List.length_append]
            omega
          obtain ⟨cuts, last, turns, ends⟩ := ih _ shorter next rfl
          exact ⟨cut :: cuts, last, .cons turn turns, ends⟩

end Scanner

/-- How the cuts of a text cover it, and which tokens they emit: one for each slice, except for
slices of blanks right behind a space. -/
structure Covers (cuts : List Cut) (text : List Char) (tokens : List Token) : Prop where
  slice_ne_nil : ∀ cut ∈ cuts, cut.slice ≠ []
  text_eq : Cut.text cuts = text
  tokens_eq : Cut.tokens cuts = tokens
  emitted_eq_none_iff : ∀ before cut behind, cuts = before ++ cut :: behind →
    (cut.emitted = none ↔
      cut.isBlank = true ∧ (Cut.tokens before).getLast?.map (·.kind) = some .space)
  spacesApart : SpacesApart tokens

/-- Scanning comes to an end on every text.  Its turns cut the text into slices that make up the
whole of it, each slice has one token or is a blank behind a space, and no two spaces stand side by
side. -/
theorem Schema.scan_covers (schema : Schema) (text : String) :
    ∃ cuts last, Scanner.Turns schema (Scanner.start text) cuts last ∧
      last.turn? schema = none ∧ last.tokens = schema.scan text ∧
      Covers cuts text.toList (schema.scan text) := by
  obtain ⟨cuts, last, turns, ends⟩ := Scanner.exists_turns schema (Scanner.start text)
  have nothingLeft := Scanner.turn?_eq_none_iff.mp ends
  have scanned : schema.scan text = last.tokens := by
    have all := turns.scanFrom
    rw [nothingLeft, Schema.scanFrom_nil, List.append_nil] at all
    exact all
  have emitted : last.tokens = Cut.tokens cuts := turns.tokens
  refine ⟨cuts, last, turns, ends, scanned.symm, turns.slice_ne_nil, ?_, ?_, ?_, ?_⟩
  · have covered := turns.rest
    rw [nothingLeft, List.append_nil] at covered
    exact covered.symm
  · rw [scanned, emitted]
  · rintro before cut behind rfl
    obtain ⟨middle, next, front, turned, _⟩ := turns.split
    have tokens_eq : middle.tokens = Cut.tokens before := front.tokens
    rw [(Scanner.advances_of_turn? turned).emitted_eq_none_iff,
      (front.sound (Scanner.sound_start text)).last_eq, tokens_eq]
  · rw [scanned]
    exact (turns.sound (Scanner.sound_start text)).spacesApart

end FilterQuery
