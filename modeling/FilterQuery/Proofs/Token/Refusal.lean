import FilterQuery.Proofs.Token.Expectation
import FilterQuery.Proofs.Token.History

/-!
# Runs behind a refused token

A list of tokens that are judged one by one can be cut anywhere.  No group is ever closed that was
not opened, and behind an invalid token there are only spaces and further invalid tokens: nothing is
expected there.
-/

namespace FilterQuery

namespace Accepts

variable {schema : Schema} {context : Context} {token : Token}

/-- Behind an invalid token only a space is accepted. -/
theorem isSpace_of_refused (accepted : Accepts schema context token)
    (behind : context.previous = some .invalid) : token.kind = .space := by
  by_contra visible
  have expects : context.Expects false false false := by
    constructor <;> simp only [Context.expectsField, Context.expectsValue, Context.isComplete,
      behind] <;> rfl
  rcases accepted.of_expects visible expects with ⟨expected, _⟩ | ⟨field, _⟩ | ⟨expected, _⟩ |
    ⟨expected, _⟩
  · contradiction
  · rw [behind] at field
    contradiction
  · contradiction
  · contradiction

/-- A parenthesis that closes a group is accepted where one is open. -/
theorem allowsClose (accepted : Accepts schema context token)
    (closes : token.kind = .closeGroup) : context.allowsClose = true := by
  cases accepted with
  | closeGroup _ allowed => exact allowed
  | space isSpace | openGroup isSpace _ => rw [closes] at isSpace; contradiction
  | field field expected names => exact absurd names.kind_eq (by rw [closes]; decide)
  | operator field behind current asks => exact absurd asks.1 (by rw [closes]; decide)
  | value field expected takes current means =>
      exact absurd means.isValue (by rw [closes]; decide)
  | logic isLogic complete => exact absurd isLogic (by rw [closes]; decide)
  | separator isSeparator allowed => exact absurd isSeparator (by rw [closes]; decide)

/-- A separator is accepted behind a value of a list. -/
theorem allowsSeparator (accepted : Accepts schema context token)
    (isSeparator : token.kind.isSeparator = true) : context.allowsSeparator = true := by
  obtain ⟨ordinary, notOperator⟩ := TokenKind.ordinary_of_isSeparator isSeparator
  cases accepted with
  | separator _ allowed => exact allowed
  | space isSpace => exact absurd isSpace ordinary.notSpace
  | openGroup opens _ => exact absurd opens ordinary.notOpen
  | closeGroup closes _ => exact absurd closes ordinary.notClose
  | field field expected names => exact absurd names.kind_eq ordinary.notField
  | operator field behind current asks => exact absurd asks.1 (by rw [notOperator]; decide)
  | value field expected takes current means =>
      rw [means.1] at isSeparator
      contradiction
  | logic isLogic complete =>
      cases shape : token.kind <;> rw [shape] at isLogic isSeparator <;> contradiction

/-- Accepting a token does not close more groups than were opened. -/
theorem closed_le_opened (accepted : Accepts schema context token)
    (balanced : context.closed ≤ context.opened) :
    (context.push schema token).closed ≤ (context.push schema token).opened := by
  rw [Context.closed_push, Context.opened_push]
  by_cases closes : token.kind = .closeGroup
  · have allowed := accepted.allowsClose closes
    rw [Context.allowsClose, Bool.and_eq_true, decide_eq_true_iff] at allowed
    rw [if_pos closes]
    omega
  · rw [if_neg closes]
    omega

end Accepts

namespace Run

variable {schema : Schema} {context : Context}

/-- A run over two lists is a run over the first and then one over the second. -/
theorem append_iff {front back : List Token} :
    Run schema context (front ++ back) ↔
      Run schema context front ∧ Run schema (context.after schema front) back := by
  induction front generalizing context with
  | nil => exact ⟨fun run => ⟨Run.nil context, run⟩, And.right⟩
  | cons token front ih =>
      constructor
      · intro run
        cases run with
        | cons judged rest =>
            rcases ih.mp rest with ⟨frontRun, backRun⟩
            exact ⟨Run.cons judged frontRun, backRun⟩
      · rintro ⟨frontRun, backRun⟩
        cases frontRun with
        | cons judged rest => exact Run.cons judged (ih.mpr ⟨rest, backRun⟩)

/-- No run closes more groups than it opens. -/
theorem closed_le_opened {tokens : List Token} (run : Run schema context tokens)
    (balanced : context.closed ≤ context.opened) :
    (context.after schema tokens).closed ≤ (context.after schema tokens).opened := by
  induction run with
  | nil context => exact balanced
  | @cons context token tokens judged rest ih =>
      apply ih
      rcases judged with isInvalid | accepted
      · rw [Context.closed_push, Context.opened_push, Token.kind_eq_of_isInvalid isInvalid]
        exact balanced
      · exact accepted.closed_le_opened balanced

/-- Behind a refused token everything but spaces is refused. -/
theorem isInvalid_of_refused {tokens : List Token} (run : Run schema context tokens)
    (behind : context.previous = some .invalid) :
    ∀ token ∈ tokens, token.kind ≠ .space → token.isInvalid = true := by
  induction run with
  | nil context => simp
  | @cons context token tokens judged rest ih =>
      rcases judged with isInvalid | accepted
      · have visible : token.kind ≠ .space := by
          rw [Token.kind_eq_of_isInvalid isInvalid]
          exact TokenKind.noConfusion
        have refused := Context.previous_push schema context visible
        rw [Token.kind_eq_of_isInvalid isInvalid] at refused
        exact List.forall_mem_cons.mpr ⟨fun _ => isInvalid, ih refused⟩
      · have isSpace := accepted.isSpace_of_refused behind
        apply List.forall_mem_cons.mpr ⟨absurd isSpace, ih _⟩
        rw [Context.push_space schema context isSpace]
        exact behind

/-- Once a token is refused, every later token that is not a space is refused. -/
theorem isInvalid_of_mem {front back : List Token} {token : Token}
    (run : Run schema context (front ++ token :: back)) (isInvalid : token.isInvalid = true) :
    ∀ later ∈ back, later.kind ≠ .space → later.isInvalid = true := by
  cases (append_iff.mp run).2 with
  | cons _ rest =>
      apply rest.isInvalid_of_refused
      have refused := Token.kind_eq_of_isInvalid isInvalid
      rw [Context.previous_push schema _ (by rw [refused]; exact TokenKind.noConfusion), refused]

/-- Before a token that is neither a space nor refused nothing was refused. -/
theorem firstInvalid?_eq_none {front back : List Token} {token : Token}
    (run : Run schema context (front ++ token :: back)) (visible : token.kind ≠ .space)
    (valid : token.isInvalid = false) : firstInvalid? front = none := by
  rw [firstInvalid?, List.find?_eq_none]
  intro earlier member refused
  obtain ⟨before, between, rfl⟩ := List.append_of_mem member
  rw [List.append_assoc, List.cons_append] at run
  have invalid := run.isInvalid_of_mem refused token (by simp) visible
  rw [valid] at invalid
  contradiction

/-- The tokens up to the first refused one are a run without any refused one. -/
theorem takeWhile_valid {tokens : List Token} (run : Run schema context tokens) :
    Run schema context (tokens.takeWhile (!·.isInvalid)) ∧
      firstInvalid? (tokens.takeWhile (!·.isInvalid)) = none := by
  constructor
  · rw [← List.takeWhile_append_dropWhile (p := (!·.isInvalid)) (l := tokens)] at run
    exact (append_iff.mp run).1
  · rw [firstInvalid?, List.find?_eq_none]
    intro token member
    simpa using List.all_eq_true.mp List.all_takeWhile token member

end Run

end FilterQuery
