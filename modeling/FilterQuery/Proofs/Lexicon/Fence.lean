import FilterQuery.Proofs.Lexicon.Priority

/-!
# Fences behind a text

A closing parenthesis, a comma, and a blank behind which no number begins keep literals apart: no
literal that begins before such a fence reaches over it.  So what a text is matched as does not
change when a fence is put behind it.  A closing parenthesis stops keywords and names as well, as
long as no name has one in it.
-/

namespace FilterQuery

namespace Lexicon

open Character

/-- What no literal reaches over. -/
inductive Fence : List Char → Prop
  | nil : Fence []
  | mark {c : Char} {rest : List Char} (closes : c = ')' ∨ c = ',') : Fence (c :: rest)
  | blank {c : Char} {rest : List Char} (notDigit : isDigit c = false) : Fence (' ' :: c :: rest)

namespace Fence

variable {rest : List Char}

theorem head?_cases (fence : Fence rest) :
    rest = [] ∨ ∃ c tail, rest = c :: tail ∧ (c = ')' ∨ c = ',' ∨ c = ' ') := by
  cases fence with
  | nil => exact Or.inl rfl
  | mark closes =>
      rcases closes with rfl | rfl
      · exact Or.inr ⟨_, _, rfl, Or.inl rfl⟩
      · exact Or.inr ⟨_, _, rfl, Or.inr (Or.inl rfl)⟩
  | blank notDigit => exact Or.inr ⟨_, _, rfl, Or.inr (Or.inr rfl)⟩

/-- What holds of the three characters that a fence may begin with holds of its first one. -/
theorem head_of (fence : Fence rest) (property : Char → Prop) (closing : property ')')
    (comma : property ',') (blank : property ' ') : ∀ c ∈ rest.head?, property c := by
  rintro c first
  rcases fence.head?_cases with rfl | ⟨head, tail, rfl, rfl | rfl | rfl⟩
  · contradiction
  · cases first
    exact closing
  · cases first
    exact comma
  · cases first
    exact blank

theorem breaksWord (fence : Fence rest) : BreaksWord rest := by
  rcases fence.head?_cases with rfl | ⟨c, tail, rfl, rfl | rfl | rfl⟩
  · exact breaksWord_nil
  · exact breaksWord_cons.mpr (by decide)
  · exact breaksWord_cons.mpr (by decide)
  · exact breaksWord_cons.mpr (by decide)

end Fence

/-- A pattern stays within a text when it matches nothing that reaches over its end. -/
def Pattern.Within (pattern : Pattern) (text rest : List Char) : Prop :=
  ∀ width, pattern.width? (text ++ rest) = some width → width ≤ text.length

/-- A pattern that stays within a text matches it alone as it does in front of what follows. -/
theorem Pattern.Cuts.width?_append {pattern : Pattern} (cuts : pattern.Cuts)
    {text rest : List Char} (breaks : BreaksWord rest) (within : pattern.Within text rest) :
    pattern.width? (text ++ rest) = pattern.width? text := by
  cases matched : pattern.width? (text ++ rest) with
  | some width => exact (cuts.cuts breaks (within width matched) matched).symm
  | none =>
      rw [eq_comm, ← Option.not_isSome_iff_eq_none]
      intro alone
      have longer := cuts.keeps breaks alone
      rw [matched] at longer
      contradiction

theorem firstMatch?_append {table : List Pattern} {first : Char} {text rest : List Char}
    (cuts : ∀ pattern ∈ table, pattern.Cuts) (breaks : BreaksWord rest)
    (within : ∀ pattern ∈ table, pattern.Within (first :: text) rest) :
    firstMatch? table (first :: text ++ rest) = firstMatch? table (first :: text) := by
  induction table with
  | nil => rfl
  | cons pattern table ih =>
      rcases List.forall_mem_cons.mp cuts with ⟨patternCuts, tableCuts⟩
      rcases List.forall_mem_cons.mp within with ⟨patternWithin, tableWithin⟩
      have admitted : pattern.admitted? (first :: text ++ rest) =
          pattern.admitted? (first :: text) := by
        rw [Pattern.admitted?, patternCuts.width?_append breaks patternWithin]
        rfl
      have others := ih tableCuts tableWithin
      rw [firstMatch?, firstMatch?] at others ⊢
      rw [List.findSome?_cons, List.findSome?_cons, admitted, others]

/-! ## Literals -/

/-- A shape stays within a text when all of its readings do. -/
theorem within_of_readings {kind : TokenKind} {width? : List Char → Option Nat}
    (readings : List Char → List Nat) {text rest : List Char}
    (first : ∀ text, width? text = firstBoundary? text (readings text))
    (within : ∀ reading ∈ readings (text ++ rest), reading ≤ text.length) :
    Pattern.Within ⟨kind, width?⟩ text rest := by
  intro width matched
  simp only [first, firstBoundary?] at matched
  exact within width (List.mem_of_find?_eq_some matched)

/-- Whether a layout has no mark that begins a fence, but for blanks before a digit. -/
def isFenced : List Char → Bool
  | [] => true
  | mark :: layout =>
      (mark == '0' || (mark != ')' && mark != ',' && (mark != ' ' || layout.head? == some '0'))) &&
        isFenced layout

theorem startsWithLayout_fence {layout text rest : List Char} (fence : Fence rest)
    (fenced : isFenced layout = true) (starts : startsWithLayout layout (text ++ rest) = true) :
    layout.length ≤ text.length := by
  induction text generalizing layout with
  | cons c text ih =>
      cases layout with
      | nil => exact Nat.zero_le _
      | cons mark layout =>
          rw [isFenced, Bool.and_eq_true] at fenced
          rw [List.cons_append, startsWithLayout, Bool.and_eq_true] at starts
          exact Nat.succ_le_succ (ih fenced.2 starts.2)
  | nil =>
      cases layout with
      | nil => exact Nat.zero_le _
      | cons mark layout =>
          exfalso
          rw [isFenced, Bool.and_eq_true] at fenced
          have allowed := fenced.1
          by_cases isZero : mark = '0'
          · have digit := fence.head_of (fun c => isDigit c = false) (by decide)
              (by decide) (by decide)
            cases rest with
            | nil => simp [startsWithLayout] at starts
            | cons c rest => simp [startsWithLayout, isZero, digit c rfl] at starts
          · cases fence with
            | nil => simp [startsWithLayout] at starts
            | mark closes =>
                simp only [List.nil_append, startsWithLayout, beq_iff_eq, isZero, if_false,
                  Bool.and_eq_true] at starts
                rcases starts with ⟨rfl, _⟩
                rcases closes with rfl | rfl <;> simp at allowed
            | @blank c tail notDigit =>
                simp only [List.nil_append, startsWithLayout, beq_iff_eq, isZero, if_false,
                  Bool.and_eq_true] at starts
                rcases starts with ⟨rfl, starts⟩
                cases layout with
                | nil => simp at allowed
                | cons second layout =>
                    have zero : second = '0' := by simpa using allowed
                    simp [startsWithLayout, zero, notDigit] at starts

theorem within_layout {kind : TokenKind} {layout ending : String} {text rest : List Char}
    (fence : Fence rest) (long : isFenced (layout ++ ending).toList = true)
    (short : isFenced layout.toList = true) :
    Pattern.Within ⟨kind, layoutWidth? layout ending⟩ text rest := by
  apply within_of_readings (layoutReadings layout ending) fun _ => rfl
  intro reading member
  rcases List.mem_filterMap.mp member with ⟨whole, inLayouts, starts⟩
  rw [Option.ite_none_right_eq_some] at starts
  rcases starts with ⟨starts, same⟩
  cases same
  simp only [List.mem_cons, List.not_mem_nil, or_false] at inLayouts
  rcases inLayouts with rfl | rfl
  · exact startsWithLayout_fence fence long starts
  · exact startsWithLayout_fence fence short starts

theorem fractionWidth_fence {rest : List Char} (fence : Fence rest) : fractionWidth rest = 0 := by
  rcases fence.head?_cases with rfl | ⟨c, tail, rfl, rfl | rfl | rfl⟩ <;> rfl

theorem within_number {kind : TokenKind} {first : Char} {text rest : List Char}
    (fence : Fence rest) : Pattern.Within ⟨kind, numberWidth?⟩ (first :: text) rest := by
  apply within_of_readings numberReadings numberWidth?_eq
  intro reading member
  have sign_le := signWidth_le first text
  have sign_eq : signWidth (first :: text ++ rest) = signWidth (first :: text) := rfl
  have whole_le := length_takeWhile_le ((first :: text).drop (signWidth (first :: text)))
  rw [List.length_drop] at whole_le
  simp only [numberReadings, sign_eq, List.drop_append_of_le_length sign_le,
    takeWhile_isDigit_append fence.breaksWord] at member
  generalize signWidth (first :: text) = sign at *
  generalize ((first :: text).drop sign).takeWhile isDigit = digits at *
  generalize first :: text = whole at *
  have within : sign + digits.length ≤ whole.length := by omega
  rw [List.drop_append_of_le_length within] at member
  by_cases atEnd : whole.drop (sign + digits.length) = []
  · rw [atEnd, List.nil_append, fractionWidth_fence fence] at member
    split at member
    · contradiction
    · rw [if_pos rfl, List.nil_append, List.mem_singleton] at member
      omega
  · have shorter := fractionWidth_lt atEnd
    rw [List.length_drop] at shorter
    rw [fractionWidth_append fence.breaksWord atEnd] at member
    split at member
    · contradiction
    · split at member
      · rw [List.nil_append, List.mem_singleton] at member
        omega
      · simp only [List.cons_append, List.nil_append, List.mem_cons, List.not_mem_nil,
          or_false] at member
        omega

/-- Letters are not read over a character that none of them is the same letter as. -/
theorem dropLetters?_stop {letters text left : List Char} {stop : Char} {rest : List Char}
    (avoids : ∀ letter ∈ letters, sameLetter stop letter = false)
    (dropped : dropLetters? letters (text ++ stop :: rest) = some left) :
    ∃ kept, left = kept ++ stop :: rest := by
  induction letters generalizing text with
  | nil =>
      cases dropped
      exact ⟨text, rfl⟩
  | cons letter letters ih =>
      rcases List.forall_mem_cons.mp avoids with ⟨firstAvoids, restAvoids⟩
      cases text with
      | nil =>
          rw [List.nil_append, dropLetters?, firstAvoids] at dropped
          contradiction
      | cons c text =>
          rw [List.cons_append, dropLetters?] at dropped
          split at dropped
          · exact ih restAvoids dropped
          · contradiction

/-- What is left of a text and what follows it was read off within the text. -/
theorem widthBefore_le {text kept rest : List Char} :
    widthBefore (text ++ rest) (kept ++ rest) ≤ text.length := by
  rw [widthBefore, List.length_append, List.length_append]
  omega

theorem within_boolean {kind : TokenKind} {text rest : List Char} (fence : Fence rest) :
    Pattern.Within ⟨kind, booleanWidth?⟩ text rest := by
  apply within_of_readings booleanReadings fun _ => rfl
  intro reading member
  rcases List.mem_filterMap.mp member with ⟨letters, inWords, read⟩
  rcases Option.map_eq_some_iff.mp read with ⟨left, dropped, rfl⟩
  rcases fence.head?_cases with rfl | ⟨stop, tail, rfl, begins⟩
  · rw [List.append_nil, widthBefore]
    exact Nat.sub_le _ _
  · have apart : ∀ letters ∈ ["true".toList, "false".toList],
        letters.all (fun letter => !sameLetter stop letter) = true := by
      rcases begins with rfl | rfl | rfl <;> decide
    have lettersApart := apart letters inWords
    simp only [List.all_eq_true, Bool.not_eq_true'] at lettersApart
    rcases dropLetters?_stop lettersApart dropped with ⟨kept, rfl⟩
    exact widthBefore_le

/-- A run of characters ends with its text when none goes on behind it. -/
theorem takeWhile_append_of_stop {continues : Char → Bool} {text rest : List Char}
    (stops : rest.takeWhile continues = []) :
    (text ++ rest).takeWhile continues = text.takeWhile continues := by
  rw [List.takeWhile_append]
  split
  · next all =>
      rw [stops, List.append_nil]
      exact ((List.takeWhile_prefix continues).eq_of_length all).symm
  · rfl

theorem within_free {kind : TokenKind} {text rest : List Char} (fence : Fence rest) :
    Pattern.Within ⟨kind, freeWidth?⟩ text rest := by
  intro width matched
  have none_behind : rest.takeWhile isFree = [] := by
    rcases fence.head?_cases with rfl | ⟨c, tail, rfl, begins⟩
    · rfl
    · apply List.takeWhile_cons_of_neg
      rcases begins with rfl | rfl | rfl <;> decide
  simp only [freeWidth?, takeWhile_append_of_stop none_behind] at matched
  split at matched
  · contradiction
  · cases matched
    exact (List.takeWhile_prefix isFree).length_le

/-- The ends of an optional part stay within a text. -/
def EndsWithin (ends : List Char → Nat → List Nat) (text rest : List Char) : Prop :=
  ∀ start ≤ text.length, ∀ position ∈ ends (text ++ rest) start, position ≤ text.length

theorem EndsWithin.andThen {first second : List Char → Nat → List Nat} {text rest : List Char}
    (firstWithin : EndsWithin first text rest) (secondWithin : EndsWithin second text rest) :
    EndsWithin (fun text start => (first text start).flatMap (second text)) text rest := by
  intro start within position member
  rcases List.mem_flatMap.mp member with ⟨middle, inFirst, inSecond⟩
  exact secondWithin middle (firstWithin start within middle inFirst) position inSecond

theorem takeWhile_isDigit_fence {rest : List Char} (fence : Fence rest) :
    rest.takeWhile isDigit = [] := by
  have same := @takeWhile_isDigit_append [] rest fence.breaksWord
  rwa [List.nil_append] at same

theorem unitWidthBehind?_fence {unit : Char} {space : Nat} {text rest : List Char} {width : Nat}
    (lower : (fold unit).isLower = true) (fence : Fence rest) (space_le : space ≤ text.length)
    (found : unitWidthBehind? unit space (text ++ rest) = some width) : width ≤ text.length := by
  have cut := @unitWidthBehind?_cut unit space text rest lower fence.breaksWord space_le
  rw [found, Option.filter_some] at cut
  by_cases inside : width ≤ text.length
  · exact inside
  · exfalso
    have digits_le := length_takeWhile_le (text.drop space)
    rw [List.length_drop] at digits_le
    rw [unitWidthBehind?] at found
    rw [List.drop_append_of_le_length space_le,
      takeWhile_isDigit_append fence.breaksWord] at found
    generalize ((text.drop space).takeWhile isDigit).length = digits at *
    have within : space + digits ≤ text.length := by omega
    rw [List.drop_append_of_le_length within] at found
    simp only [Option.ite_none_right_eq_some, Option.some.injEq, Bool.and_eq_true] at found
    rcases found with ⟨⟨_, unitFound⟩, rfl⟩
    have atEnd : text.drop (space + digits) = [] := List.drop_eq_nil_iff.mpr (by omega)
    rw [atEnd, List.nil_append] at unitFound
    rcases Option.any_eq_true _ _ |>.mp unitFound with ⟨c, first, same⟩
    have isWord_c := isWord_of_sameLetter lower same
    have breaks := fence.breaksWord
    rw [BreaksWord, first] at breaks
    simp [isWordAt, isWord_c] at breaks

theorem unitWidth?_fence {mayBeSpaced : Bool} {unit : Char} {text rest : List Char} {width : Nat}
    (lower : (fold unit).isLower = true) (fence : Fence rest)
    (found : unitWidth? mayBeSpaced unit (text ++ rest) = some width) : width ≤ text.length := by
  rw [unitWidth?_eq] at found
  cases text with
  | cons first text =>
      have space_le : (if mayBeSpaced && some first == some ' ' then 1 else 0) ≤
          (first :: text).length := by
        split <;> simp
      exact unitWidthBehind?_fence lower fence space_le found
  | nil =>
      -- Behind a blank that begins a fence stands no digit, and before it there is none either.
      exfalso
      rw [List.nil_append] at found
      have noDigits : (rest.drop (if mayBeSpaced && rest.head? == some ' ' then 1 else 0)).takeWhile
          isDigit = [] := by
        split
        · next spaced =>
            cases fence with
            | nil => rfl
            | mark closes => rcases closes with rfl | rfl <;> simp at spaced
            | blank notDigit => simp [notDigit]
        · exact takeWhile_isDigit_fence fence
      rw [unitWidthBehind?, noDigits] at found
      simp at found

theorem endsWithin_unit {mayBeSpaced : Bool} {unit : Char} {text rest : List Char}
    (lower : (fold unit).isLower = true) (fence : Fence rest) :
    EndsWithin (unitEnds mayBeSpaced unit) text rest := by
  intro start within position member
  rw [unitEnds, List.drop_append_of_le_length within, List.mem_append, List.mem_singleton] at member
  rcases member with found | rfl
  · rcases Option.map_eq_some_iff.mp (Option.mem_toList.mp found) with ⟨width, matched, rfl⟩
    have shorter := unitWidth?_fence lower fence matched
    rw [List.length_drop] at shorter
    omega
  · exact within

theorem within_shorthand {kind : TokenKind} {text rest : List Char} (fence : Fence rest) :
    Pattern.Within ⟨kind, shorthandWidth?⟩ text rest := by
  apply within_of_readings shorthandReadings fun _ => rfl
  have hours : EndsWithin (unitEnds false 'h') text rest := endsWithin_unit (by decide) fence
  have minutes : EndsWithin (unitEnds true 'm') text rest := endsWithin_unit (by decide) fence
  have seconds : EndsWithin (unitEnds true 's') text rest := endsWithin_unit (by decide) fence
  exact hours.andThen (minutes.andThen seconds) 0 (Nat.zero_le _)

/-! ## The table of literals -/

theorem isFenced_layouts : isFenced ("0000-00-00 00:00" ++ ":00").toList = true ∧
    isFenced "0000-00-00 00:00".toList = true ∧ isFenced ("0000-00-00" ++ "").toList = true ∧
    isFenced "0000-00-00".toList = true ∧ isFenced ("00:00" ++ ":00").toList = true ∧
    isFenced "00:00".toList = true := by decide

/-- No literal but a quoted one reaches over a fence. -/
theorem within_of_mem_tail {first : Char} {text rest : List Char} (fence : Fence rest) :
    ∀ pattern ∈ literalPatterns.tail, pattern.Within (first :: text) rest := by
  rcases isFenced_layouts with ⟨dateTimeLong, dateTime, dateLong, date, timeLong, time⟩
  intro pattern member
  simp only [literalPatterns, List.tail_cons, List.mem_cons, List.not_mem_nil, or_false] at member
  rcases member with rfl | rfl | rfl | rfl | rfl | rfl | rfl
  · exact within_layout fence dateTimeLong dateTime
  · exact within_layout fence dateLong date
  · exact within_layout fence timeLong time
  · exact within_shorthand fence
  · exact within_number fence
  · exact within_boolean fence
  · exact within_free fence

/-- A layout that begins with a digit is not found where none stands. -/
theorem layoutWidth?_of_notDigit (layout ending : String) {first : Char} (text : List Char)
    (digit : layout.toList.head? = some '0') (notDigit : isDigit first = false) :
    layoutWidth? layout ending (first :: text) = none := by
  cases shape : layout.toList with
  | nil => simp [shape] at digit
  | cons mark marks =>
      have zero : mark = '0' := by simpa [shape] using digit
      simp [layoutWidth?, firstBoundary?, startsWithLayout, shape, zero, notDigit]

/-- What begins with a quote is no literal but a quoted one. -/
theorem firstMatch?_tail_of_isQuote {first : Char} (text : List Char)
    (quote : isQuote first = true) : firstMatch? literalPatterns.tail (first :: text) = none := by
  have facts : isDigit first = false ∧ first ≠ ' ' ∧ first ≠ '-' ∧ first ≠ '+' ∧
      sameLetter first 't' = false ∧ sameLetter first 'f' = false ∧ isFree first = false := by
    simp only [isQuote, Bool.or_eq_true, beq_iff_eq] at quote
    rcases quote with rfl | rfl <;> decide
  rcases facts with ⟨notDigit, notBlank, notMinus, notPlus, notTrue, notFalse, notFree⟩
  have noUnit (mayBeSpaced : Bool) (unit : Char) :
      unitEnds mayBeSpaced unit (first :: text) 0 = [0] := by
    simp [unitEnds, unitWidth?, notDigit, notBlank]
  have noShorthand : shorthandReadings (first :: text) = [0] := by
    simp [shorthandReadings, noUnit]
  have noNumber : numberWidth? (first :: text) = none := by
    simp [numberWidth?, notDigit, notMinus, notPlus]
  have noBoolean : booleanWidth? (first :: text) = none := by
    simp [booleanWidth?, firstBoundary?, dropLetters?, notTrue, notFalse]
  have noFree : freeWidth? (first :: text) = none := by
    simp [freeWidth?, notFree]
  apply List.findSome?_eq_none_iff.mpr
  intro pattern member
  rw [Option.map_eq_none_iff, Pattern.admitted?, Option.filter_eq_none_iff]
  intro width matched
  simp only [literalPatterns, List.tail_cons, List.mem_cons, List.not_mem_nil, or_false] at member
  rcases member with rfl | rfl | rfl | rfl | rfl | rfl | rfl
  · simp [layoutWidth?_of_notDigit "0000-00-00 00:00" ":00" text rfl notDigit] at matched
  · simp [layoutWidth?_of_notDigit "0000-00-00" "" text rfl notDigit] at matched
  · simp [layoutWidth?_of_notDigit "00:00" ":00" text rfl notDigit] at matched
  · have empty := List.mem_of_find?_eq_some (p := isBoundary (first :: text)) matched
    change width ∈ shorthandReadings (first :: text) at empty
    rw [noShorthand, List.mem_singleton] at empty
    simp [empty]
  · simp [noNumber] at matched
  · simp [noBoolean] at matched
  · simp [noFree] at matched

theorem quotedWidth?_append {text : List Char} {width : Nat} (rest : List Char)
    (matched : quotedWidth? text = some width) : quotedWidth? (text ++ rest) = some width := by
  cases text with
  | nil => contradiction
  | cons quote text =>
      simp only [List.cons_append, quotedWidth?] at matched ⊢
      split at matched
      · next isQuote =>
          rcases Option.map_eq_some_iff.mp matched with ⟨index, found, rfl⟩
          rw [if_pos isQuote, List.findIdx?_append, found]
          rfl
      · contradiction

/-- A literal is found in front of a fence as it is found alone. -/
theorem firstMatch?_literal_append {first : Char} {text rest : List Char}
    {found : TokenKind × Nat} (fence : Fence rest)
    (matched : firstMatch? literalPatterns (first :: text) = some found) :
    firstMatch? literalPatterns (first :: text ++ rest) = some found := by
  have table (text : List Char) : firstMatch? literalPatterns text =
      (((Pattern.mk (.value .string) quotedWidth?).admitted? text).map
        fun width => (TokenKind.value .string, width)).or
        (firstMatch? literalPatterns.tail text) := by
    rw [firstMatch?, literalPatterns, List.findSome?_cons]
    cases (Pattern.mk (.value .string) quotedWidth?).admitted? text <;> rfl
  have others : firstMatch? literalPatterns.tail (first :: text ++ rest) =
      firstMatch? literalPatterns.tail (first :: text) :=
    firstMatch?_append (fun _ member => cuts_of_mem_literalPatterns (List.mem_of_mem_tail member))
      fence.breaksWord (within_of_mem_tail fence)
  rw [table] at matched ⊢
  rcases Option.or_eq_some_iff.mp matched with quoted | ⟨notQuoted, other⟩
  · rcases Option.map_eq_some_iff.mp quoted with ⟨width, admitted, rfl⟩
    rcases Option.filter_eq_some_iff.mp admitted with ⟨closed, admissible⟩
    change quotedWidth? (first :: text) = some width at closed
    have longer : (Pattern.mk (.value .string) quotedWidth?).admitted? (first :: text ++ rest) =
        some width := by
      change (quotedWidth? (first :: text ++ rest)).filter _ = some width
      rw [quotedWidth?_append rest closed, Option.filter_some, if_pos]
      exact admissible
    rw [longer]
    rfl
  · have notQuote : isQuote first = false := by
      rw [Bool.eq_false_iff]
      intro quote
      rw [firstMatch?_tail_of_isQuote text quote] at other
      contradiction
    have missed : (Pattern.mk (.value .string) quotedWidth?).admitted? (first :: text ++ rest) =
        none := by
      simp [Pattern.admitted?, quotedWidth?, notQuote]
    rw [missed, others, other]
    rfl

/-! ## Keywords and names before a closing parenthesis -/

/-- A reader stops at a character when it reads nothing that reaches over it. -/
def ReaderStops (stop : Char) (read : List Char → Option (List Char)) : Prop :=
  ∀ ⦃text rest left : List Char⦄, read (text ++ stop :: rest) = some left →
    ∃ kept, left = kept ++ stop :: rest

namespace ReaderStops

variable {stop : Char} {read next : List Char → Option (List Char)}

theorem bind (first : ReaderStops stop read) (second : ReaderStops stop next) :
    ReaderStops stop fun text => (read text).bind next := by
  intro text rest left both
  rcases Option.bind_eq_some_iff.mp both with ⟨middle, readFirst, readSecond⟩
  obtain ⟨kept, rfl⟩ := first readFirst
  exact second readSecond

theorem filter (stops : ReaderStops stop read) (accepts : List Char → Bool) :
    ReaderStops stop fun text => (read text).filter accepts :=
  fun _ _ _ filtered => stops (Option.filter_eq_some_iff.mp filtered).1

theorem afterBlanks (stops : ReaderStops stop read) (visible : isBlank stop = false) :
    ReaderStops stop fun text => read (text.dropWhile isBlank) := by
  intro text rest left readRest
  simp only [List.dropWhile_append, List.dropWhile_cons_of_neg (p := isBlank) (a := stop)
    (by simp [visible])] at readRest
  split at readRest
  · exact @stops [] _ _ readRest
  · exact stops readRest

theorem word {word : Word} (letters : ∀ letter ∈ word.letters, sameLetter stop letter = false)
    (notS : sameLetter stop 's' = false) : ReaderStops stop word.rest? := by
  intro text rest left readWord
  rcases Option.map_eq_some_iff.mp readWord with ⟨middle, dropped, rfl⟩
  obtain ⟨kept, rfl⟩ := dropLetters?_stop letters dropped
  split
  · cases kept with
    | nil => exact ⟨[], by simp [dropS, notS]⟩
    | cons c kept =>
        rw [List.cons_append, dropS]
        split
        · exact ⟨kept, rfl⟩
        · exact ⟨c :: kept, rfl⟩
  · exact ⟨kept, rfl⟩

theorem wordsRest? {words : List Word} (visible : isBlank stop = false)
    (letters : ∀ word ∈ words, ∀ letter ∈ word.letters, sameLetter stop letter = false)
    (notS : sameLetter stop 's' = false) : ReaderStops stop (wordsRest? words) := by
  induction words with
  | nil =>
      intro text rest left readNone
      cases readNone
      exact ⟨text, rfl⟩
  | cons word words ih =>
      rcases List.forall_mem_cons.mp letters with ⟨wordLetters, othersLetters⟩
      exact ((ReaderStops.word wordLetters notS).afterBlanks visible).bind (ih othersLetters)

end ReaderStops

/-- The words of a keyword are not read over a closing parenthesis. -/
theorem Keyword.readerStops_afterWords? {keyword : Keyword} (member : keyword ∈ keywords) :
    ReaderStops ')' keyword.afterWords? := by
  have letters : ∀ keyword ∈ keywords, ∀ word ∈ keyword.words,
      word.letters.all (fun letter => !sameLetter ')' letter) = true := by decide
  have keywordLetters := letters keyword member
  simp only [List.all_eq_true, Bool.not_eq_true'] at keywordLetters
  unfold afterWords?
  cases words : keyword.words with
  | nil =>
      intro _ _ _ read
      contradiction
  | cons first others =>
      rw [words] at keywordLetters
      rcases List.forall_mem_cons.mp keywordLetters with ⟨firstLetters, othersLetters⟩
      have notS : sameLetter ')' 's' = false := by decide
      exact ((ReaderStops.word firstLetters notS).bind
        (ReaderStops.wordsRest? (by decide) othersLetters notS)).filter _

/-- A symbol of more than one character has no closing parenthesis in it. -/
theorem Keyword.afterSymbol?_stop {keyword : Keyword} (member : keyword ∈ keywords) {first : Char}
    {text rest left : List Char}
    (read : keyword.afterSymbol? (first :: text ++ ')' :: rest) = some left) :
    ∃ kept, left = kept ++ ')' :: rest := by
  have symbols : ∀ keyword ∈ keywords, ')' ∉ keyword.symbol.toList.tail := by decide
  unfold afterSymbol? at read
  split at read
  · contradiction
  · rw [isPrefixOf?_eq_some_iff] at read
    rcases List.append_eq_append_iff.mp read with ⟨more, symbol_eq, rest_eq⟩ | ⟨more, _, rfl⟩
    · cases more with
      | nil => exact ⟨[], rest_eq.symm⟩
      | cons c more =>
          cases rest_eq
          exact absurd (by simp [symbol_eq]) (symbols keyword member)
    · exact ⟨more, rfl⟩

theorem Keyword.within_close {keyword : Keyword} (member : keyword ∈ keywords) {first : Char}
    {text rest : List Char} : keyword.pattern.Within (first :: text) (')' :: rest) := by
  intro width matched
  rcases Option.map_eq_some_iff.mp matched with ⟨left, read, rfl⟩
  rcases Option.or_eq_some_iff.mp read with symbol | ⟨_, words⟩
  · obtain ⟨kept, rfl⟩ := Keyword.afterSymbol?_stop member symbol
    exact widthBefore_le
  · obtain ⟨kept, rfl⟩ := Keyword.readerStops_afterWords? member words
    exact widthBefore_le

theorem within_namePattern {name : String} {text rest : List Char} (avoids : ')' ∉ name.toList) :
    (namePattern name).Within text (')' :: rest) := by
  intro width matched
  rcases Option.map_eq_some_iff.mp (Option.filter_eq_some_iff.mp matched).1 with
    ⟨left, dropped, rfl⟩
  have letters : ∀ letter ∈ name.toList, sameLetter ')' letter = false := by
    intro letter member
    rw [Bool.eq_false_iff]
    intro same
    rw [eq_of_sameLetter (by decide) (by decide) same] at member
    exact avoids member
  obtain ⟨kept, rfl⟩ := dropLetters?_stop letters dropped
  exact widthBefore_le

end Lexicon

open Lexicon

namespace Schema

variable {schema : Schema}

/-- No name and no label has a closing parenthesis in it. -/
def NamesAvoidClose (schema : Schema) : Prop :=
  ∀ field ∈ schema.fields, ')' ∉ field.name.toList ∧ ')' ∉ field.label.toList

/-- What a text is matched as does not change when a closing parenthesis is put behind it. -/
theorem match?_append_close (avoids : schema.NamesAvoidClose) {first : Char}
    {text : List Char} (rest : List Char) {found : TokenKind × Nat}
    (matched : schema.match? (first :: text) = some found) :
    schema.match? (first :: text ++ ')' :: rest) = some found := by
  have fence : Fence (')' :: rest) := Fence.mark (Or.inl rfl)
  have keywords_eq : firstMatch? keywordPatterns (first :: text ++ ')' :: rest) =
      firstMatch? keywordPatterns (first :: text) := by
    apply firstMatch?_append (fun _ => cuts_of_mem_keywordPatterns) fence.breaksWord
    intro pattern member
    rcases List.mem_map.mp member with ⟨keyword, inTable, rfl⟩
    exact Keyword.within_close inTable
  have names_eq : firstMatch? (schema.fields.flatMap fieldPatterns)
      (first :: text ++ ')' :: rest) =
      firstMatch? (schema.fields.flatMap fieldPatterns) (first :: text) := by
    apply firstMatch?_append _ fence.breaksWord
    · intro pattern member
      obtain ⟨name, rfl, nameAvoids⟩ := exists_naming_of_all (')' ∉ ·.toList) avoids member
      exact within_namePattern nameAvoids
    · intro pattern member
      obtain ⟨name, rfl⟩ := exists_naming member
      exact cuts_namePattern name
  rw [match?_eq_or] at matched ⊢
  rw [keywords_eq, names_eq]
  rcases Option.or_eq_some_iff.mp matched with keyword | ⟨noKeyword, other⟩
  · rw [keyword]
    rfl
  · rcases Option.or_eq_some_iff.mp other with name | ⟨noName, literal⟩
    · rw [noKeyword, name]
      rfl
    · rw [noKeyword, noName, firstMatch?_literal_append fence literal]
      rfl

end Schema

end FilterQuery
