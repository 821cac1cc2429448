import FilterQuery.Proofs.Expression.Condition
import FilterQuery.Proofs.Lexicon.Written
import FilterQuery.Proofs.Token.Piece

/-!
# Operators named in text queries

An operator is written as a symbol or in words, these in any letter case, with any blanks or none
between them, and verbs in the third person as well.  Every such spelling is found as the operator:
no keyword before it in the table takes it, unless the text goes on as the spelling of a longer one.
-/

namespace FilterQuery

open Character Lexicon

namespace Operator

/-- The symbol of an operator, if it has one. -/
def symbol? : Operator → Option String
  | compare .equal => some "="
  | compare .notEqual => some "!="
  | compare .greaterThan => some ">"
  | compare .greaterThanOrEqual => some ">="
  | compare .lessThan => some "<"
  | compare .lessThanOrEqual => some "<="
  | compare .contain => some "~"
  | compare .notContain => some "!~"
  | compare .startWith => some "~*"
  | compare .notStartWith => some "!~*"
  | compare .endWith => some "*~"
  | compare .notEndWith => some "!*~"
  | presence .blank => some "[]"
  | presence .notBlank => some "![]"
  | _ => none

/-- The words of an operator.  Verbs may be written in the third person. -/
def words (operator : Operator) : List Word :=
  (operator.keyword.toList.splitOn ' ').map fun letters =>
    ⟨letters, ["start".toList, "end".toList, "contain".toList].contains letters⟩

/-- The mark with which the symbol of an operator becomes that of another. -/
def nextMark? : Operator → Option Char
  | compare .greaterThan | compare .lessThan => some '='
  | compare .contain | compare .notContain => some '*'
  | _ => none

/-- Whether the words of an operator may become those of another with `or equal` behind them. -/
def takesOrEqual : Operator → Bool
  | compare .greaterThan | compare .lessThan => true
  | _ => false

end Operator

/-- The words that make greater than and less than other operators. -/
def orEqual : List Word :=
  [word "or", word "equal"]

namespace Operator

variable {operator : Operator}

/-- The entry of an operator in the table, and what the keywords before it may be taken for. -/
theorem exists_keyword (known : operator ≠ .unknown) :
    ∃ before keyword behind, keywords = before ++ keyword :: behind ∧
      keyword.kind = operator.kind ∧ keyword.words = operator.words ∧
      keyword.symbol = operator.symbol?.getD "" ∧ keyword.beginsApart keyword = true ∧
      ∀ other ∈ before,
        (other.isApartFrom keyword = true ∨ operator.takesOrEqual = true ∧
          other.beginsApart keyword = true ∧ other.words = keyword.words ++ orEqual) ∧
        (operator.symbol?.isSome = true →
          other.isApartFromSymbol operator.nextMark? keyword = true) := by
  have each : ∀ operator ∈ Operator.all, ∃ index : Fin keywords.length,
      keywords[index].kind = operator.kind ∧ keywords[index].words = operator.words ∧
      keywords[index].symbol = operator.symbol?.getD "" ∧
      keywords[index].beginsApart keywords[index] = true ∧
      ∀ other ∈ keywords.take index,
        (other.isApartFrom keywords[index] = true ∨ operator.takesOrEqual = true ∧
          other.beginsApart keywords[index] = true ∧
          other.words = keywords[index].words ++ orEqual) ∧
        (operator.symbol?.isSome = true →
          other.isApartFromSymbol operator.nextMark? keywords[index] = true) := by
    decide +kernel
  obtain ⟨index, facts⟩ := each operator (Operator.mem_all known)
  refine ⟨keywords.take index, keywords[index], keywords.drop (index + 1), ?_, facts⟩
  rw [Fin.getElem_fin, ← List.drop_eq_getElem_cons index.isLt, List.take_append_drop]

theorem areClear_words (known : operator ≠ .unknown) :
    operator.words ≠ [] ∧ areClear operator.words = true := by
  have each : ∀ operator ∈ Operator.all,
      operator.words ≠ [] ∧ areClear operator.words = true := by
    decide +kernel
  exact each operator (Operator.mem_all known)

/-- A text that is all read as the words of an operator is found as the operator, if no word goes on
behind it and the words are not those of another operator. -/
theorem firstMatch?_words (known : operator ≠ .unknown) {first : Char} {text rest : List Char}
    (visible : isBlank first = false) (read : wordsRest? operator.words (first :: text) = some [])
    (breaks : BreaksWord rest)
    (ends : operator.takesOrEqual = true →
      ∀ left, wordsRest? orEqual rest = some left → isWordAt left.head? = true) :
    firstMatch? keywordPatterns (first :: text ++ rest) =
      some (operator.kind, (first :: text).length) := by
  obtain ⟨before, keyword, behind, table, kind_eq, words_eq, _, begins, passed⟩ :=
    exists_keyword known
  have hasWords : keyword.words ≠ [] := by
    rw [words_eq]
    exact (areClear_words known).1
  have nonempty := words_nonempty keyword (by rw [table]; simp)
  have whole : keyword.afterWords? (first :: text) = some [] := by
    rw [Keyword.afterWords?_eq text visible hasWords, words_eq, read]
    rfl
  have longer := (Keyword.readerCuts_afterWords? nonempty).append breaks whole
  rw [← kind_eq]
  apply Keyword.firstMatch?_words table visible begins whole breaks
  intro other member
  rcases (passed other member).1 with isApart | ⟨takesMore, otherBegins, goesOn⟩
  · exact Or.inl isApart
  · exact Or.inr (Keyword.rest?_of_goesOn nonempty visible otherBegins goesOn (ends takesMore) longer)

/-- The symbol of an operator is found as the operator, if it is not that of another operator. -/
theorem firstMatch?_symbol {symbol : String} (isSymbol : operator.symbol? = some symbol)
    {rest : List Char} (ends : ∀ mark ∈ operator.nextMark?, rest.head? ≠ some mark) :
    firstMatch? keywordPatterns (symbol.toList ++ rest) =
      some (operator.kind, symbol.toList.length) := by
  have known : operator ≠ .unknown := by
    rintro rfl
    contradiction
  have begins : ∀ operator ∈ Operator.all, ∀ symbol ∈ operator.symbol?,
      symbol.toList.head?.any (!isBlank ·) = true := by decide
  have visible := begins operator (mem_all known) symbol isSymbol
  obtain ⟨before, keyword, behind, table, kind_eq, _, symbol_eq, _, passed⟩ := exists_keyword known
  rw [isSymbol, Option.getD_some] at symbol_eq
  rw [isSymbol] at passed
  rw [← kind_eq]
  cases shape : symbol.toList with
  | nil => simp [shape] at visible
  | cons first text =>
      rw [shape] at visible
      exact Keyword.firstMatch?_symbol table (by rw [symbol_eq, shape]) (by simpa using visible)
        (fun other member => (passed other member).2 rfl) ends

/-- A text is a spelling of an operator in front of another text, with which it is not the spelling
of a longer operator. -/
inductive SpelledBefore (operator : Operator) (rest : String) : String → Prop
  | symbol {symbol : String} (isSymbol : operator.symbol? = some symbol)
      (ends : ∀ mark ∈ operator.nextMark?, rest.toList.head? ≠ some mark) :
      SpelledBefore operator rest symbol
  | words {spelling : String} (known : operator ≠ .unknown)
      (written : WrittenWords operator.words spelling.toList) (breaks : BreaksWord rest.toList)
      (ends : operator.takesOrEqual = true → ¬ GoesOnWith orEqual rest.toList) :
      SpelledBefore operator rest spelling

end Operator

/-- Every spelling of an operator is found as the operator, whatever the schema and whatever
follows. -/
theorem Schema.find?_operator (schema : Schema) {operator : Operator} {spelling rest : String}
    (spelled : operator.SpelledBefore rest spelling) :
    schema.find? (spelling ++ rest) = some (operator.kind, spelling) := by
  apply find?_of_match?
  apply schema.match?_of_keyword
  cases spelled with
  | symbol isSymbol ends => exact Operator.firstMatch?_symbol isSymbol ends
  | words known written breaks ends =>
      have clear := (Operator.areClear_words known).2
      have read := written.wordsRest?_eq clear
      have visible := written.visible clear
      cases shape : spelling.toList with
      | nil => simp [shape] at visible
      | cons first text =>
          rw [shape] at read visible
          apply Operator.firstMatch?_words known (by simpa using visible) read breaks
          have plain : ∀ word ∈ orEqual, word.mayEndInS = false ∧
              word.letters.all isPlain = true := by decide
          intro takesMore left goesOn
          exact isWordAt_of_not_goesOnWith plain (by decide) (ends takesMore) goesOn

theorem Schema.find?_operator_notStartWith :
    (Operator.compare .notStartWith).SpelledBefore "(x)" "NOTstarts \tWith" ∧
      (⟨[⟨"starts", "not", .single .string, [], []⟩]⟩ : Schema).find? ("NOTstarts \tWith" ++ "(x)") =
        some (.comparer .notStartWith, "NOTstarts \tWith") := by
  have words_eq : (Operator.compare .notStartWith).words =
      [word "not", verb "start", word "with"] := by decide
  have last : WrittenWords [word "with"] "With".toList := .last (Or.inl (by decide))
  have behindNot : WrittenWords [verb "start", word "with"]
      ("starts".toList ++ " \t".toList ++ "With".toList) :=
    .cons (Or.inr ⟨rfl, by decide⟩) (List.all_eq_true.mp (by decide)) last
  have written : WrittenWords [word "not", verb "start", word "with"]
      ("NOT".toList ++ [] ++ ("starts".toList ++ " \t".toList ++ "With".toList)) :=
    .cons (Or.inl (by decide)) (by simp) behindNot
  have spelled : (Operator.compare .notStartWith).SpelledBefore "(x)" "NOTstarts \tWith" := by
    apply Operator.SpelledBefore.words Operator.noConfusion
    · rw [words_eq]
      exact written
    · exact breaksWord_cons.mpr (by decide)
    · exact fun takesMore => Bool.noConfusion takesMore
  exact ⟨spelled, Schema.find?_operator _ spelled⟩

end FilterQuery
