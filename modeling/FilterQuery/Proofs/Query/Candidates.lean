import FilterQuery.Proofs.Node.Completion
import FilterQuery.Proofs.Query.TextAgreement
import FilterQuery.Proofs.Token.Refusal

/-!
# Classifying any candidates

Candidates of any kinds may be classified one after another, not only those that scanning a text
suggests.  What has been accepted is still the beginning of a query: groups are not closed before
they are opened, a separator stands behind a value of a list, nothing is accepted any more once a
token has been refused, and the tokens before that can be assembled and completed.
-/

namespace FilterQuery

/-- The tokens of candidates that are classified one after another, each behind those before it. -/
def Schema.classifyEach (schema : Schema) (context : Context) :
    List (TokenKind × String) → List Token
  | [] => []
  | (kind, raw) :: rest =>
      match schema.classify context kind raw with
      | some token => token :: schema.classifyEach (context.push schema token) rest
      | none => schema.classifyEach context rest

/-- Classifying candidates judges their tokens one by one. -/
theorem Schema.run_classifyEach (schema : Schema) (context : Context)
    (candidates : List (TokenKind × String)) :
    Run schema context (schema.classifyEach context candidates) := by
  induction candidates generalizing context with
  | nil => exact Run.nil context
  | cons candidate candidates ih =>
      rw [classifyEach]
      split
      · next token classified => exact Run.cons (judged_of_classify classified) (ih _)
      · exact ih context

namespace Assembly

/-- A leaf with an operand ends with the token that was read last. -/
theorem getLast?_of_extend? {current : Partial} {token subject relation : Token}
    {operand : Operand} (extended : extend? current token = some (.leaf subject relation operand))
    (isComparer : relation.kind.isComparer = true) :
    operand.tokens.getLast? = some token ∧ token.kind.isValue = true := by
  cases current with
  | field subject =>
      rw [extend?] at extended
      split at extended
      · cases extended
      · split at extended
        · next isPresence =>
            cases extended
            rw [TokenKind.isComparer_eq_false isPresence] at isComparer
            contradiction
        · contradiction
  | operator subject relation =>
      rw [extend?, Option.ite_none_right_eq_some] at extended
      obtain ⟨isValue, same⟩ := extended
      cases same
      exact ⟨rfl, isValue⟩
  | separated subject relation values =>
      rw [extend?, Option.ite_none_right_eq_some] at extended
      obtain ⟨isValue, same⟩ := extended
      cases same
      exact ⟨List.getLast?_concat, isValue⟩
  | empty | leaf _ _ _ | node _ => simp [extend?] at extended

/-- The last value of a leaf is the latest token, spaces aside. -/
theorem lastVisible?_of_leaf {tokens : List Token} {pending : List Pending}
    {subject relation : Token} {operand : Operand}
    (assembled : tokens.foldlM step start = .ok ⟨pending, .leaf subject relation operand⟩)
    (isComparer : relation.kind.isComparer = true) :
    ∃ value, operand.tokens.getLast? = some value ∧ lastVisible? tokens = some value ∧
      value.kind.isValue = true := by
  induction tokens using List.reverseRecOn with
  | nil => cases assembled
  | append_singleton tokens token ih =>
      rw [List.foldlM_append] at assembled
      cases before : tokens.foldlM step start with
      | error error => simp [before, bind, Except.bind] at assembled
      | ok earlier =>
          rw [before] at assembled
          have stepped : earlier.step token = .ok ⟨pending, .leaf subject relation operand⟩ := by
            rw [← bind_pure (earlier.step token)]
            exact assembled
          rw [lastVisible?_append_singleton]
          cases steps_of_step stepped with
          | space isSpace =>
              rw [if_pos isSpace]
              exact ih before
          | extend extended =>
              obtain ⟨last, isValue⟩ := getLast?_of_extend? extended isComparer
              have visible := (TokenKind.ordinary_of_isValue isValue).1.notSpace
              exact ⟨token, last, if_neg visible, isValue⟩

end Assembly

/-- The operators that take lists are the two that ask for membership. -/
theorem TokenKind.eq_of_takesList {kind : TokenKind}
    (takesList : kind.toOperator.takesList = true) :
    kind = .comparer .anyOf ∨ kind = .comparer .noneOf := by
  cases kind with
  | comparer relation =>
      cases relation with
      | anyOf => exact Or.inl rfl
      | noneOf => exact Or.inr rfl
      | _ => contradiction
  | _ => contradiction

namespace Run

variable {schema : Schema}

/-- A separator stands behind a value of a leaf that may have a list of them. -/
theorem behind_value {front back : List Token} {separator : Token}
    (run : Run schema Context.start (front ++ separator :: back))
    (isSeparator : separator.kind.isSeparator = true) :
    ∃ pending subject relation operand value,
      front.foldlM Assembly.step Assembly.start = .ok ⟨pending, .leaf subject relation operand⟩ ∧
        (relation.kind = .comparer .anyOf ∨ relation.kind = .comparer .noneOf) ∧
        operand.tokens.getLast? = some value ∧ lastVisible? front = some value ∧
        value.kind.isValue = true := by
  have ordinary := (TokenKind.ordinary_of_isSeparator isSeparator).1
  have valid : separator.isInvalid = false := by
    rw [Bool.eq_false_iff]
    intro isInvalid
    rw [Token.kind_eq_of_isInvalid isInvalid] at isSeparator
    contradiction
  have frontValid := run.firstInvalid?_eq_none ordinary.notSpace valid
  rcases append_iff.mp run with ⟨frontRun, behindFront⟩
  have assembled := Assembly.agrees_start.run frontRun
  rw [frontValid] at assembled
  rcases assembled with ⟨⟨pending, current⟩, assembled, agrees⟩
  cases behindFront with
  | cons judged rest =>
      have allowed : (Context.start.after schema front).allowsSeparator = true := by
        rcases judged with isInvalid | accepted
        · rw [valid] at isInvalid
          contradiction
        · exact accepted.allowsSeparator isSeparator
      have fits := agrees.fits
      obtain ⟨subject, relation, operand, holds⟩ := fits.eq_leaf agrees.typed allowed
      cases holds
      have takesList : relation.kind.toOperator.takesList = true := by
        rw [Context.allowsSeparator, Bool.and_eq_true, fits.2.1] at allowed
        exact allowed.1
      have isComparer : relation.kind.isComparer = true := by
        rcases TokenKind.eq_of_takesList takesList with any | none
        · rw [any]
          rfl
        · rw [none]
          rfl
      obtain ⟨value, last, visible, isValue⟩ :=
        Assembly.lastVisible?_of_leaf assembled isComparer
      exact ⟨pending, subject, relation, operand, value, assembled,
        TokenKind.eq_of_takesList takesList, last, visible, isValue⟩

/-- Tokens of which none was refused can be assembled, and at their end only the rest of a query
may be missing. -/
theorem ofTokens_cases {tokens : List Token} (run : Run schema Context.start tokens)
    (valid : firstInvalid? tokens = none) :
    (∃ tree, Node.ofTokens tokens = .ok tree) ∨
      Node.ofTokens tokens = .error .incompleteExpression ∨
      Node.ofTokens tokens = .error .unclosedGroup := by
  have assembled := Schema.ofTokens_eq run
  simp only [valid] at assembled
  split at assembled
  · exact Or.inr (Or.inl assembled)
  · split at assembled
    · rcases assembled with ⟨tree, built, _⟩
      exact Or.inl ⟨tree, built⟩
    · exact Or.inr (Or.inr assembled)

/-- Tokens of which none was refused are the beginning of a query. -/
theorem exists_completion {tokens : List Token} (run : Run schema Context.start tokens)
    (valid : firstInvalid? tokens = none) :
    ∃ rest root, Node.ofTokens (tokens ++ rest) = .ok (some root) := by
  have assembled := Assembly.agrees_start.run run
  rw [valid] at assembled
  rcases assembled with ⟨assembly, assembled, _⟩
  exact Node.exists_ofTokens_append assembled

end Run

/-- Whatever candidates are classified one after another: no more groups are closed than were
opened, nothing but spaces is accepted behind a refused token, a separator stands directly behind a
value of a leaf that asks for membership in a list, and the tokens before the first refused one are
the beginning of a query, at whose end only the rest of it may be missing. -/
theorem Schema.classifyEach_invariant (schema : Schema) (candidates : List (TokenKind × String)) :
    let tokens := schema.classifyEach Context.start candidates
    let accepted := tokens.takeWhile (!·.isInvalid)
    (∀ front back, tokens = front ++ back →
        (Context.start.after schema front).closed ≤ (Context.start.after schema front).opened) ∧
      (∀ front token back, tokens = front ++ token :: back → token.isInvalid = true →
        ∀ later ∈ back, later.kind ≠ .space → later.isInvalid = true) ∧
      (∀ front separator back, tokens = front ++ separator :: back →
        separator.kind = .comma ∨ separator.kind = .slash →
        ∃ pending subject relation operand value,
          front.foldlM Assembly.step Assembly.start =
              .ok ⟨pending, .leaf subject relation operand⟩ ∧
            (relation.kind = .comparer .anyOf ∨ relation.kind = .comparer .noneOf) ∧
            operand.tokens.getLast? = some value ∧ lastVisible? front = some value ∧
            value.kind.isValue = true) ∧
      ((∃ tree, Node.ofTokens accepted = .ok tree) ∨
        Node.ofTokens accepted = .error .incompleteExpression ∨
        Node.ofTokens accepted = .error .unclosedGroup) ∧
      ∃ rest root, Node.ofTokens (accepted ++ rest) = .ok (some root) := by
  intro tokens accepted
  have run : Run schema Context.start tokens := schema.run_classifyEach Context.start candidates
  obtain ⟨acceptedRun, acceptedValid⟩ := run.takeWhile_valid
  refine ⟨?_, ?_, ?_, acceptedRun.ofTokens_cases acceptedValid,
    acceptedRun.exists_completion acceptedValid⟩
  · intro front back parts
    rw [parts] at run
    exact (Run.append_iff.mp run).1.closed_le_opened (Nat.le_refl 0)
  · intro front token back parts isInvalid
    rw [parts] at run
    exact run.isInvalid_of_mem isInvalid
  · intro front separator back parts kinds
    rw [parts] at run
    apply run.behind_value
    rcases kinds with comma | slash
    · rw [comma]
      rfl
    · rw [slash]
      rfl

end FilterQuery
