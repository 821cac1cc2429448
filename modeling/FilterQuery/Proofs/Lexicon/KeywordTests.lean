import FilterQuery.Proofs.Lexicon.Spelling
import FilterQuery.Proofs.Lexicon.Written

/-!
# Tests for keywords

Whether a text is a keyword is decided without a schema, and which connective it is without any
patterns.  Both tests agree with what the pattern table of every schema finds in the text: keywords
come first there, so neither a field nor a literal is found in place of one, and no character
outside ASCII is read as a letter of a connective.
-/

namespace FilterQuery

open Lexicon

namespace TokenKind

/-- Whether a kind is a parenthesis or a separator. -/
def isPunctuation (kind : TokenKind) : Bool :=
  kind == openGroup || kind == closeGroup || kind.isSeparator

/-- Whether a kind is that of a keyword: punctuation, a connective or an operator. -/
def isKeyword (kind : TokenKind) : Bool :=
  kind.isPunctuation || kind.isLogic || kind.isOperator

theorem isKeyword_eq_false {kind : TokenKind} (suggests : kind.suggestsOperand = true) :
    kind.isKeyword = false := by
  cases kind with
  | field | noOperand | value _ | literal => rfl
  | _ => contradiction

end TokenKind

namespace Lexicon

theorem exists_keyword_of_firstMatch? {text : List Char} {kind : TokenKind} {width : Nat}
    (matched : firstMatch? keywordPatterns text = some (kind, width)) :
    ∃ keyword ∈ keywords, keyword.kind = kind ∧ keyword.pattern.width? text = some width := by
  obtain ⟨pattern, member, rfl, admitted⟩ := exists_pattern_of_firstMatch? matched
  obtain ⟨keyword, inTable, rfl⟩ := List.mem_map.mp member
  exact ⟨keyword, inTable, rfl, Pattern.width?_of_admitted? admitted⟩

/-- What is found has the kind of a keyword exactly if a keyword is found. -/
theorem match?_eq_some_and_isKeyword_iff {schema : Schema} {text : List Char} {kind : TokenKind}
    {width : Nat} :
    schema.match? text = some (kind, width) ∧ kind.isKeyword = true ↔
      firstMatch? keywordPatterns text = some (kind, width) := by
  constructor
  · rintro ⟨matched, isKeyword⟩
    apply (match?_cases matched).resolve_right
    intro suggests
    rw [TokenKind.isKeyword_eq_false suggests] at isKeyword
    contradiction
  · intro matched
    have kinds : ∀ keyword ∈ keywords, keyword.kind.isKeyword = true := by decide
    obtain ⟨keyword, inTable, rfl, _⟩ := exists_keyword_of_firstMatch? matched
    exact ⟨schema.match?_of_keyword matched, kinds keyword inTable⟩

/-- A word without an optional ending is read as its letters. -/
theorem rest?_word (letters : String) (text : List Char) :
    (word letters).rest? text = dropLetters? letters.toList text := by
  simp [Word.rest?, word]

/-- A text that is all read as a keyword of one plain word is its symbol, or the word in some letter
case. -/
theorem Keyword.eq_of_rest? {keyword : Keyword} {letters : String} {text : List Char}
    (words_eq : keyword.words = [word letters]) (plain : letters.toList.all isPlain = true)
    (read : keyword.rest? text = some []) :
    text = keyword.symbol.toList ∨ foldAscii text = letters.toList := by
  rw [rest?, Option.or_eq_some_iff] at read
  rcases read with symbol | ⟨_, words⟩
  · rw [afterSymbol?, Option.ite_none_left_eq_some, isPrefixOf?_eq_some_iff,
      List.append_nil] at symbol
    exact Or.inl symbol.2
  · rw [afterWords?, words_eq, Option.filter_eq_some_iff, Option.bind_eq_some_iff] at words
    obtain ⟨⟨left, first, others⟩, _⟩ := words
    cases others
    rw [rest?_word] at first
    obtain ⟨written, rfl, folded⟩ := exists_of_dropLetters? plain first
    rw [List.append_nil]
    exact Or.inr folded

/-- A keyword of one plain word is found as a whole exactly in its word, in any letter case, and in
its symbol. -/
theorem findExact?_eq_some_iff_of_word {schema : Schema} {kind : TokenKind}
    {letters symbol : String}
    (isKeyword : kind.isKeyword = true)
    (entry : ∀ keyword ∈ keywords, keyword.kind = kind →
      keyword.symbol = symbol ∧ keyword.words = [word letters])
    (plain : letters.toList.all isPlain = true) (noLetters : toSmall symbol = symbol)
    (found : ∀ spelling ∈ [letters, symbol],
      firstMatch? keywordPatterns spelling.toList = some (kind, spelling.toList.length))
    (text : String) :
    schema.findExact? text = some kind ↔ toSmall text ∈ [letters, symbol] := by
  have wholly : schema.findExact? text = some kind ↔
      firstMatch? keywordPatterns text.toList = some (kind, text.toList.length) := by
    rw [Schema.findExact?_eq_some_iff, ← @match?_eq_some_and_isKeyword_iff schema,
      and_iff_left isKeyword]
  rw [wholly]
  constructor
  · intro matched
    obtain ⟨keyword, inTable, kind_eq, width_eq⟩ := exists_keyword_of_firstMatch? matched
    obtain ⟨rfl, words_eq⟩ := entry keyword inTable kind_eq
    have positive : text.toList.length ≠ 0 := by
      intro empty
      rw [empty] at width_eq
      exact Keyword.width?_ne_zero (words_nonempty keyword inTable) width_eq
    obtain ⟨left, read, covered⟩ := Option.map_eq_some_iff.mp width_eq
    have nothingLeft : left = [] := by
      rw [widthBefore] at covered
      exact List.length_eq_zero_iff.mp (by omega)
    rw [nothingLeft] at read
    rcases Keyword.eq_of_rest? words_eq plain read with isSymbol | isWord
    · have text_eq : text = keyword.symbol := String.toList_inj.mp isSymbol
      simp [text_eq, noLetters]
    · have small_eq : toSmall text = letters := by
        rw [← String.toList_inj, toList_toSmall, isWord]
      simp [small_eq]
  · intro spelling
    have matched := found _ spelling
    rw [toList_toSmall, length_foldAscii,
      firstMatch?_foldAscii fun pattern => ignoresCase_of_mem_keywordPatterns] at matched
    exact matched

end Lexicon

namespace Logic

/-- The word and the symbol of a connective. -/
def spellings : Logic → List String
  | and => ["and", "&&"]
  | or => ["or", "||"]
  | unknown => []

theorem ofKeyword_eq_iff {connective : Logic} (known : connective ≠ .unknown) (text : String) :
    ofKeyword text = connective ↔ toSmall text ∈ connective.spellings := by
  cases connective with
  | unknown => contradiction
  | and | or =>
      unfold ofKeyword toSmall foldAscii
      split <;> simp_all [spellings]

end Logic

/-- The whole of a text is found as a connective exactly if it is the keyword of the connective. -/
theorem Schema.findExact?_eq_some_iff_ofKeyword (schema : Schema) {kind : TokenKind}
    (isLogic : kind.isLogic = true) (text : String) :
    schema.findExact? text = some kind ↔ Logic.ofKeyword text = kind.toLogic := by
  cases kind with
  | and | or =>
      rw [Logic.ofKeyword_eq_iff Logic.noConfusion]
      apply findExact?_eq_some_iff_of_word rfl <;> decide
  | _ => contradiction

/-- A text is a keyword exactly if the table of any schema finds all of it as punctuation, as a
connective or as an operator, and it names a connective exactly if the table finds all of it as that
connective. -/
theorem Schema.keywordTests_agree (schema : Schema) (text : String) :
    (isKeyword text = true ↔ ∃ kind, schema.findExact? text = some kind ∧
      (kind.isPunctuation = true ∨ kind.isLogic = true ∨ kind.isOperator = true)) ∧
    (Logic.ofKeyword text = .and ↔ schema.findExact? text = some .and) ∧
    (Logic.ofKeyword text = .or ↔ schema.findExact? text = some .or) := by
  refine ⟨?_, (@findExact?_eq_some_iff_ofKeyword schema .and rfl text).symm,
    (@findExact?_eq_some_iff_ofKeyword schema .or rfl text).symm⟩
  rw [isKeyword_iff]
  apply exists_congr
  intro kind
  rw [← @match?_eq_some_and_isKeyword_iff schema, findExact?_eq_some_iff, TokenKind.isKeyword,
    Bool.or_eq_true, Bool.or_eq_true, or_assoc]

end FilterQuery
