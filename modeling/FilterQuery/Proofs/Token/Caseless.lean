import FilterQuery.Proofs.Lexicon.Caseless
import FilterQuery.Proofs.Value.Caseless
import FilterQuery.Token.Scan

/-!
# Tokens and letter case

A text and its small form are cut into the same pieces.  Each piece is classified alike, as a
context remembers no letters but those of names, and only the payloads of the tokens keep their
case.
-/

namespace FilterQuery

open Character

namespace Token

/-- A token with the ASCII capitals of its payload made small. -/
def toSmall (token : Token) : Token :=
  ⟨token.kind, token.value.toSmall⟩

@[simp]
theorem kind_toSmall (token : Token) : token.toSmall.kind = token.kind :=
  rfl

theorem toSmall_ofText (kind : TokenKind) (content : String) :
    (ofText kind content).toSmall = ofText kind (FilterQuery.toSmall content) :=
  congrArg (Token.mk kind) (Value.toSmall.eq_1 content)

theorem toSmall_noOperand : noOperand.toSmall = noOperand :=
  rfl

/-- Texts with one small form become tokens with one small form. -/
theorem ofText_toSmall (kind : TokenKind) (content : String) :
    (ofText kind (FilterQuery.toSmall content)).toSmall = (ofText kind content).toSmall := by
  rw [toSmall_ofText, toSmall_ofText, FilterQuery.toSmall_toSmall]

theorem acceptedIf_toSmall (acceptable : Bool) (kind : TokenKind) (raw : String) :
    (acceptedIf acceptable kind (FilterQuery.toSmall raw)).toSmall =
      (acceptedIf acceptable kind raw).toSmall := by
  cases acceptable <;> exact ofText_toSmall _ raw

end Token

namespace Context

variable (schema : Schema) (context : Context)

/-- The letter case of a payload leaves no mark on the context. -/
theorem push_toSmall (token : Token) :
    context.push schema token.toSmall = context.push schema token := by
  have named : (token.value.toSmall.content?.bind schema.field?) =
      token.value.content?.bind schema.field? := by
    cases token.value with
    | text content =>
        rw [Value.toSmall]
        exact schema.field?_toSmall content
    | list _ => rw [Value.toSmall]; rfl
    | number _ | boolean _ | date _ | dateTime _ | time _ => rfl
  unfold push advance
  simp only [Token.toSmall, named]

theorem valueToken_toSmall (raw : String) :
    (context.valueToken (toSmall raw)).toSmall = (context.valueToken raw).toSmall := by
  unfold valueToken
  cases context.field with
  | none => exact Token.ofText_toSmall _ raw
  | some field =>
      have meant := field.operand?_toSmall raw
      cases read : field.operand? raw with
      | none =>
          rw [read, Option.map_none, Option.map_eq_none_iff] at meant
          simp only [meant, read]
          exact Token.ofText_toSmall _ raw
      | some value =>
          rw [read, Option.map_some, Option.map_eq_some_iff] at meant
          rcases meant with ⟨other, readSmall, same⟩
          simp only [readSmall, read]
          split
          · exact congrArg (Token.mk _) same
          · exact Token.ofText_toSmall _ raw

end Context

namespace Schema

variable (schema : Schema)

theorem fieldToken_toSmall (raw : String) :
    (schema.fieldToken (toSmall raw)).toSmall = (schema.fieldToken raw).toSmall := by
  unfold fieldToken
  rw [schema.field?_toSmall]
  split
  · rfl
  · exact Token.ofText_toSmall _ raw

/-- A candidate is judged without regard to its letter case. -/
theorem classify_toSmall (context : Context) (kind : TokenKind) (raw : String) :
    (schema.classify context kind (toSmall raw)).map Token.toSmall =
      (schema.classify context kind raw).map Token.toSmall := by
  have invalid := congrArg some (Token.ofText_toSmall .invalid raw)
  have value := congrArg some (context.valueToken_toSmall raw)
  have field := congrArg some (schema.fieldToken_toSmall raw)
  have conditional (acceptable : Bool) :=
    congrArg some (Token.acceptedIf_toSmall acceptable kind raw)
  cases kind with
  | space =>
      simp only [classify]
      split
      · rfl
      · exact congrArg some (Token.ofText_toSmall .space raw)
  | invalid => exact invalid
  | field | literal | noOperand | value _ =>
      simp only [classify]
      repeat' split
      all_goals assumption
  | _ => exact conditional _

/-- A text and its small form begin with the same piece, but for the case of its letters. -/
theorem piece_foldAscii (first : Char) (rest : List Char) :
    schema.piece first.toLower (foldAscii rest) =
      { schema.piece first rest with raw := foldAscii (schema.piece first rest).raw } := by
  unfold piece
  rw [← foldAscii_cons, schema.match?_foldAscii, isBlank_toLower]
  cases schema.match? (first :: rest) with
  | some found =>
      simp only [Piece.whole, take_foldAscii]
  | none =>
      simp only
      split
      · simp only [Piece.whole, take_foldAscii]
      · have run (text : List Char) : (foldAscii text).takeWhile (fun c => !isBlank c) =
            foldAscii (text.takeWhile fun c => !isBlank c) :=
          takeWhile_foldAscii (fun c => congrArg (!·) (isBlank_toLower c)) text
        have space (c : Option Char) : c.map Char.toLower = some ' ' ↔ c = some ' ' := by
          cases c with
          | none => simp
          | some c => simp [toLower_eq_iff]
        simp only [Piece.unknown, run, length_foldAscii, getElem?_foldAscii, space]

/-- A text and its small form have the same tokens behind a context, but for the case of their
letters. -/
theorem scanFrom_foldAscii (context : Context) (text : List Char) :
    (schema.scanFrom context (foldAscii text)).map Token.toSmall =
      (schema.scanFrom context text).map Token.toSmall := by
  fun_induction schema.scanFrom context text with
  | case1 context => rw [foldAscii_nil, scanFrom]
  | case2 context first rest piece remainder token classified ih =>
      have judged := schema.classify_toSmall context piece.kind (String.ofList piece.raw)
      rw [classified, Option.map_some, Option.map_eq_some_iff] at judged
      rcases judged with ⟨small, classifiedSmall, same⟩
      have pushed : context.push schema small = context.push schema token := by
        rw [← context.push_toSmall schema small, same, context.push_toSmall schema token]
      rw [toSmall, String.toList_ofList] at classifiedSmall
      rw [foldAscii_cons, scanFrom, piece_foldAscii, ← foldAscii_cons, drop_foldAscii]
      simp only [piece] at classifiedSmall
      simp only [classifiedSmall, pushed, List.map_cons, same]
      exact congrArg _ ih
  | case3 context first rest piece remainder classified ih =>
      have judged := schema.classify_toSmall context piece.kind (String.ofList piece.raw)
      rw [classified, Option.map_none, Option.map_eq_none_iff, toSmall, String.toList_ofList]
        at judged
      rw [foldAscii_cons, scanFrom, piece_foldAscii, ← foldAscii_cons, drop_foldAscii]
      simp only [piece] at judged
      simp only [judged]
      exact ih

/-- Queries that agree up to letter case have the same tokens, but for the case of their letters. -/
theorem scan_of_sameCaseless {query other : String} (same : sameCaseless query other = true) :
    (schema.scan query).map Token.toSmall = (schema.scan other).map Token.toSmall := by
  rw [sameCaseless_eq_true_iff] at same
  rw [scan, scan, ← scanFrom_foldAscii, same, scanFrom_foldAscii]

end Schema

end FilterQuery
