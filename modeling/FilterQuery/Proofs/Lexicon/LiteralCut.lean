import FilterQuery.Lexicon.Find
import FilterQuery.Proofs.Lexicon.Cut

/-!
# Cutting a text behind a literal

Most shapes of literals have several readings, of which the first that ends at a word boundary
counts.  In a text that is cut off exactly those readings are left that end within it.  Quoted and
free text have a single reading.  So every pattern of a schema cuts, and a piece that the table
finds at the start of a text is found with the same kind when it stands alone.
-/

namespace FilterQuery

namespace Lexicon

open Character

/-- Readings are cut when exactly those are left that end within the shorter text. -/
def ReadingsCut (readings : List Char → List Nat) : Prop :=
  ∀ text rest, BreaksWord rest →
    readings text = (readings (text ++ rest)).filter (· ≤ text.length)

/-- A text has no boundary beyond its end. -/
theorem le_length_of_isBoundary {text : List Char} {position : Nat}
    (boundary : isBoundary text position = true) : position ≤ text.length := by
  apply Nat.le_of_not_lt
  intro beyond
  have positive : position ≠ 0 := by omega
  rw [isBoundary, if_neg positive, List.getElem?_eq_none (by omega),
    List.getElem?_eq_none (by omega)] at boundary
  contradiction

/-- A shape cuts when its readings are cut. -/
theorem cuts_of_readings {kind : TokenKind} {width? : List Char → Option Nat}
    {readings : List Char → List Nat}
    (first : ∀ text, width? text = firstBoundary? text (readings text))
    (cut : ReadingsCut readings) : Pattern.Cuts ⟨kind, width?⟩ where
  width_le matched := by
    simp only [first, firstBoundary?] at matched
    exact le_length_of_isBoundary (List.find?_some matched)
  keeps {text rest} breaks matched := by
    simp only [first, firstBoundary?, List.find?_isSome] at matched ⊢
    rcases matched with ⟨width, member, boundary⟩
    rw [cut text rest breaks, List.mem_filter, decide_eq_true_eq] at member
    exact ⟨width, member.1, by rw [isBoundary_append breaks member.2]; exact boundary⟩
  cuts {text rest width} breaks within matched := by
    simp only [first, firstBoundary?] at matched ⊢
    rw [cut text rest breaks, List.find?_filter, List.find?_eq_some_iff_append]
    rcases List.find?_eq_some_iff_append.mp matched with ⟨boundary, before, behind, same, passed⟩
    rw [isBoundary_append breaks within] at boundary
    refine ⟨by simp [within, boundary], before, behind, same, ?_⟩
    intro reading member
    have missed := passed reading member
    by_cases inside : reading ≤ text.length
    · rw [isBoundary_append breaks inside] at missed
      simpa [inside] using missed
    · simp [inside]

/-! ## Layouts and truth values -/

theorem startsWithLayout_cut (layout text rest : List Char) :
    startsWithLayout layout text =
      (startsWithLayout layout (text ++ rest) && decide (layout.length ≤ text.length)) := by
  induction layout generalizing text with
  | nil => simp [startsWithLayout]
  | cons mark layout ih =>
      cases text with
      | nil => simp [startsWithLayout]
      | cons c text =>
          rw [List.cons_append, startsWithLayout, startsWithLayout, ih text, Bool.and_assoc]
          simp

/-- The readings of a layout with an optional ending. -/
def layoutReadings (layout ending : String) (text : List Char) : List Nat :=
  [layout ++ ending, layout].filterMap fun whole =>
    if startsWithLayout whole.toList text then some whole.toList.length else none

theorem readingsCut_layout (layout ending : String) :
    ReadingsCut (layoutReadings layout ending) := by
  intro text rest _
  rw [layoutReadings, layoutReadings, List.filter_filterMap]
  congr 1
  funext whole
  rw [startsWithLayout_cut whole.toList text rest]
  cases startsWithLayout whole.toList (text ++ rest) with
  | true =>
      by_cases inside : whole.toList.length ≤ text.length
      · simp [inside, Option.filter_some]
      · simp [inside, Option.filter_some]
  | false => rfl

/-- The readings of a truth value. -/
def booleanReadings (text : List Char) : List Nat :=
  ["true".toList, "false".toList].filterMap fun letters =>
    (dropLetters? letters text).map (widthBefore text)

theorem readingsCut_boolean : ReadingsCut booleanReadings := by
  intro text rest breaks
  rw [booleanReadings, booleanReadings, List.filter_filterMap]
  congr 1
  funext letters
  have reader := readerCuts_dropLetters? letters
  cases dropped : dropLetters? letters text with
  | some left =>
      have shorter := widthBefore_append rest (reader.length_le dropped)
      have within : widthBefore text left ≤ text.length := Nat.sub_le _ _
      rw [reader.append breaks dropped, Option.map_some, Option.map_some, shorter,
        Option.filter_some, if_pos (decide_eq_true within)]
  | none =>
      rw [Option.map_none, eq_comm, Option.filter_eq_none_iff]
      intro width matched inside
      rcases Option.map_eq_some_iff.mp matched with ⟨left, read, rfl⟩
      obtain ⟨kept, readKept, _⟩ := reader.width_cut breaks read (of_decide_eq_true inside)
      rw [dropped] at readKept
      contradiction

/-! ## Numbers -/

/-- A text that does not continue a word does not continue a run of digits. -/
theorem takeWhile_isDigit_append {text rest : List Char} (breaks : BreaksWord rest) :
    (text ++ rest).takeWhile isDigit = text.takeWhile isDigit := by
  have none_behind : rest.takeWhile isDigit = [] := by
    cases rest with
    | nil => rfl
    | cons c rest =>
        apply List.takeWhile_cons_of_neg
        intro digit
        rw [breaksWord_cons, isWord_of_isDigit digit] at breaks
        contradiction
  rw [List.takeWhile_append]
  split
  · next all =>
      rw [none_behind, List.append_nil]
      exact ((List.takeWhile_prefix isDigit).eq_of_length all).symm
  · rfl

theorem length_takeWhile_le (text : List Char) : (text.takeWhile isDigit).length ≤ text.length :=
  (List.takeWhile_prefix isDigit).length_le

/-- The width of the digits behind a point. -/
def fractionWidth : List Char → Nat
  | '.' :: rest => (rest.takeWhile isDigit).length
  | _ => 0

theorem fractionWidth_append {tail rest : List Char} (breaks : BreaksWord rest)
    (nonempty : tail ≠ []) : fractionWidth (tail ++ rest) = fractionWidth tail := by
  cases tail with
  | nil => contradiction
  | cons c tail =>
      by_cases point : c = '.'
      · rw [point, List.cons_append, fractionWidth, fractionWidth, takeWhile_isDigit_append breaks]
      · simp [fractionWidth, point]

theorem fractionWidth_lt {tail : List Char} (nonempty : tail ≠ []) :
    fractionWidth tail < tail.length := by
  cases tail with
  | nil => contradiction
  | cons c tail =>
      by_cases point : c = '.'
      · rw [point, fractionWidth]
        exact Nat.lt_succ_of_le (length_takeWhile_le tail)
      · simp [fractionWidth, point]

/-- The width of a sign. -/
def signWidth (text : List Char) : Nat :=
  if text.head?.any fun c => c == '-' || c == '+' then 1 else 0

/-- The readings of a number: with its fraction, if it has one, and without. -/
def numberReadings (text : List Char) : List Nat :=
  let sign := signWidth text
  let whole := ((text.drop sign).takeWhile isDigit).length
  let fraction := fractionWidth (text.drop (sign + whole))
  if whole = 0 then []
  else (if fraction = 0 then [] else [sign + whole + 1 + fraction]) ++ [sign + whole]

theorem numberWidth?_eq (text : List Char) :
    numberWidth? text = firstBoundary? text (numberReadings text) := by
  simp only [numberReadings, apply_ite (firstBoundary? text)]
  rfl

theorem pos_of_mem_numberReadings {text : List Char} {width : Nat}
    (member : width ∈ numberReadings text) : 0 < width := by
  simp only [numberReadings] at member
  split at member
  · contradiction
  · split at member <;> simp at member <;> omega

theorem signWidth_le (first : Char) (text : List Char) :
    signWidth (first :: text) ≤ (first :: text).length := by
  rw [signWidth]
  split <;> simp

theorem readingsCut_number : ReadingsCut numberReadings := by
  intro text rest breaks
  cases text with
  | nil =>
      have none_left : numberReadings [] = [] := rfl
      rw [none_left, eq_comm, List.filter_eq_nil_iff]
      intro width member inside
      exact absurd (of_decide_eq_true inside) (Nat.not_le_of_lt (pos_of_mem_numberReadings member))
  | cons first text =>
      have sign_le := signWidth_le first text
      have sign_eq : signWidth (first :: text ++ rest) = signWidth (first :: text) := rfl
      have whole_le := length_takeWhile_le ((first :: text).drop (signWidth (first :: text)))
      rw [List.length_drop] at whole_le
      simp only [numberReadings, sign_eq, List.drop_append_of_le_length sign_le,
        takeWhile_isDigit_append breaks]
      generalize signWidth (first :: text) = sign at *
      generalize ((first :: text).drop sign).takeWhile isDigit = digits at *
      generalize first :: text = whole at *
      have within : sign + digits.length ≤ whole.length := by omega
      rw [List.drop_append_of_le_length within]
      split
      · rfl
      · by_cases atEnd : whole.drop (sign + digits.length) = []
        · have length_eq : whole.length ≤ sign + digits.length := List.drop_eq_nil_iff.mp atEnd
          rw [atEnd, List.nil_append]
          have kept : (fractionWidth ([] : List Char)) = 0 := rfl
          rw [kept, if_pos rfl, List.nil_append, List.filter_append]
          split
          · simp [within]
          · have beyond : ¬ sign + digits.length + 1 + fractionWidth rest ≤ whole.length := by omega
            simp [within, beyond]
        · have shorter := fractionWidth_lt atEnd
          rw [List.length_drop] at shorter
          rw [fractionWidth_append breaks atEnd, List.filter_append]
          split
          · simp [within]
          · have inside : sign + digits.length + 1 +
                fractionWidth (whole.drop (sign + digits.length)) ≤ whole.length := by omega
            simp [within, inside]

/-! ## Shorthands -/

/-- The ends of an optional part are cut when exactly those are left that lie within the shorter
text, and none lies before the start of the part. -/
structure EndsCut (ends : List Char → Nat → List Nat) : Prop where
  cut {text rest : List Char} {start : Nat} : BreaksWord rest → start ≤ text.length →
    ends text start = (ends (text ++ rest) start).filter (· ≤ text.length)
  start_le {text : List Char} {start position : Nat} : position ∈ ends text start →
    start ≤ position

/-- Parts that are cut one by one are cut one behind the other. -/
theorem EndsCut.andThen {first second : List Char → Nat → List Nat} (firstCut : EndsCut first)
    (secondCut : EndsCut second) :
    EndsCut fun text start => (first text start).flatMap (second text) where
  cut {text rest start} breaks within := by
    rw [firstCut.cut breaks within, List.filter_flatMap]
    induction first (text ++ rest) start with
    | nil => rfl
    | cons position positions ih =>
        rw [List.flatMap_cons, ← ih]
        by_cases inside : position ≤ text.length
        · rw [List.filter_cons_of_pos (by simpa using inside), List.flatMap_cons,
            secondCut.cut breaks inside]
        · have beyond : (second (text ++ rest) position).filter (· ≤ text.length) = [] := by
            rw [List.filter_eq_nil_iff]
            intro later member
            have behind := secondCut.start_le member
            simp only [decide_eq_true_eq]
            omega
          rw [List.filter_cons_of_neg (by simpa using inside), beyond, List.nil_append]
  start_le {text start position} member := by
    rcases List.mem_flatMap.mp member with ⟨middle, inFirst, inSecond⟩
    exact Nat.le_trans (firstCut.start_le inFirst) (secondCut.start_le inSecond)

theorem isWord_of_sameLetter {c letter : Char} (lower : (fold letter).isLower = true)
    (same : sameLetter c letter = true) : isWord c = true := by
  have fold_eq : fold c = fold letter := by simpa [sameLetter] using same
  exact (letter_of_fold_isLower (by rw [fold_eq]; exact lower)).1

/-- The width of digits and a unit letter behind so many other characters. -/
def unitWidthBehind? (unit : Char) (space : Nat) (text : List Char) : Option Nat :=
  let digits := ((text.drop space).takeWhile isDigit).length
  if digits != 0 && ((text.drop (space + digits)).head?.any (sameLetter · unit)) then
    some (space + digits + 1)
  else none

theorem unitWidth?_eq (mayBeSpaced : Bool) (unit : Char) (text : List Char) :
    unitWidth? mayBeSpaced unit text =
      unitWidthBehind? unit (if mayBeSpaced && text.head? == some ' ' then 1 else 0) text :=
  rfl

theorem unitWidthBehind?_pos {unit : Char} {space : Nat} {text : List Char} {width : Nat}
    (found : unitWidthBehind? unit space text = some width) : 0 < width := by
  rw [unitWidthBehind?] at found
  split at found
  · cases found
    exact Nat.succ_pos _
  · contradiction

theorem unitWidthBehind?_cut {unit : Char} {space : Nat} {text rest : List Char}
    (lower : (fold unit).isLower = true) (breaks : BreaksWord rest)
    (space_le : space ≤ text.length) :
    unitWidthBehind? unit space text =
      (unitWidthBehind? unit space (text ++ rest)).filter (· ≤ text.length) := by
  have digits_le := length_takeWhile_le (text.drop space)
  rw [List.length_drop] at digits_le
  simp only [unitWidthBehind?]
  rw [List.drop_append_of_le_length space_le, takeWhile_isDigit_append breaks]
  generalize ((text.drop space).takeWhile isDigit).length = digits at *
  have within : space + digits ≤ text.length := by omega
  rw [List.drop_append_of_le_length within]
  cases tail : text.drop (space + digits) with
  | nil =>
      have no_unit : (rest.head?.any (sameLetter · unit)) = false := by
        cases rest with
        | nil => rfl
        | cons c rest =>
            rw [List.head?_cons, Option.any_some, Bool.eq_false_iff]
            intro same
            rw [breaksWord_cons, isWord_of_sameLetter lower same] at breaks
            contradiction
      rw [List.nil_append, no_unit]
      simp
  | cons c tail =>
      have longer : space + digits + 1 ≤ text.length := by
        have length_eq := congrArg List.length tail
        simp only [List.length_drop, List.length_cons] at length_eq
        omega
      rw [List.cons_append, List.head?_cons, List.head?_cons]
      split
      · rw [Option.filter_some, if_pos (decide_eq_true longer)]
      · rfl

/-- A part is found in a shorter text exactly when it ends within it. -/
theorem unitWidth?_cut {mayBeSpaced : Bool} {unit : Char} {text rest : List Char}
    (lower : (fold unit).isLower = true) (breaks : BreaksWord rest) :
    unitWidth? mayBeSpaced unit text =
      (unitWidth? mayBeSpaced unit (text ++ rest)).filter (· ≤ text.length) := by
  cases text with
  | nil =>
      have none_left : unitWidth? mayBeSpaced unit [] = none := by
        cases mayBeSpaced <;> rfl
      rw [none_left, eq_comm, Option.filter_eq_none_iff]
      intro width found inside
      exact absurd (of_decide_eq_true inside) (Nat.not_le_of_lt (unitWidthBehind?_pos found))
  | cons first text =>
      have space_le : (if mayBeSpaced && some first == some ' ' then 1 else 0) ≤
          (first :: text).length := by
        split <;> simp
      exact unitWidthBehind?_cut lower breaks space_le

theorem endsCut_unit {mayBeSpaced : Bool} {unit : Char} (lower : (fold unit).isLower = true) :
    EndsCut (unitEnds mayBeSpaced unit) where
  cut {text rest start} breaks within := by
    simp only [unitEnds]
    rw [List.drop_append_of_le_length within, unitWidth?_cut lower breaks, List.length_drop]
    cases unitWidth? mayBeSpaced unit (text.drop start ++ rest) with
    | none => simp [within]
    | some width =>
        by_cases inside : width ≤ text.length - start
        · have total : start + width ≤ text.length := by omega
          simp [Option.filter_some, inside, within, total]
        · have total : ¬ start + width ≤ text.length := by omega
          simp [Option.filter_some, inside, within, total]
  start_le {text start position} member := by
    simp only [unitEnds, List.mem_append, Option.mem_toList, List.mem_singleton,
      Option.map_eq_some_iff] at member
    rcases member with ⟨width, _, rfl⟩ | rfl
    · exact Nat.le_add_right _ _
    · exact Nat.le_refl _

/-- The readings of a shorthand. -/
def shorthandReadings (text : List Char) : List Nat :=
  (unitEnds false 'h' text 0).flatMap fun hours =>
    (unitEnds true 'm' text hours).flatMap fun minutes => unitEnds true 's' text minutes

theorem readingsCut_shorthand : ReadingsCut shorthandReadings := by
  intro text rest breaks
  have hours : EndsCut (unitEnds false 'h') := endsCut_unit (by decide)
  have minutes : EndsCut (unitEnds true 'm') := endsCut_unit (by decide)
  have seconds : EndsCut (unitEnds true 's') := endsCut_unit (by decide)
  exact (hours.andThen (minutes.andThen seconds)).cut breaks (Nat.zero_le _)

/-! ## Quoted and free text -/

theorem cuts_quoted (kind : TokenKind) : Pattern.Cuts ⟨kind, quotedWidth?⟩ where
  width_le {text width} matched := by
    cases text with
    | nil => contradiction
    | cons quote text =>
        simp only [quotedWidth?] at matched
        split at matched
        · rcases Option.map_eq_some_iff.mp matched with ⟨index, found, rfl⟩
          rw [List.findIdx?_eq_some_iff_findIdx_eq] at found
          exact Nat.succ_le_succ found.1
        · contradiction
  keeps {text rest} _ matched := by
    cases text with
    | nil => contradiction
    | cons quote text =>
        simp only [List.cons_append, quotedWidth?] at matched ⊢
        split at matched
        · next isQuote =>
            rw [if_pos isQuote, List.findIdx?_append]
            cases found : text.findIdx? (· == quote) with
            | none =>
                rw [found] at matched
                contradiction
            | some index => rfl
        · contradiction
  cuts {text rest width} _ within matched := by
    cases text with
    | nil =>
        cases rest with
        | nil => contradiction
        | cons quote rest =>
            simp only [List.nil_append, quotedWidth?] at matched
            split at matched
            · rcases Option.map_eq_some_iff.mp matched with ⟨index, _, rfl⟩
              simp at within
            · contradiction
    | cons quote text =>
        simp only [List.cons_append, quotedWidth?] at matched ⊢
        split at matched
        · next isQuote =>
            rcases Option.map_eq_some_iff.mp matched with ⟨index, found, rfl⟩
            rw [List.findIdx?_append, Option.or_eq_some_iff] at found
            rcases found with found | ⟨_, beyond⟩
            · rw [if_pos isQuote, found, Option.map_some]
            · rcases Option.map_eq_some_iff.mp beyond with ⟨later, _, rfl⟩
              simp only [List.length_cons] at within
              omega
        · contradiction

theorem cuts_free (kind : TokenKind) : Pattern.Cuts ⟨kind, freeWidth?⟩ where
  width_le {text width} matched := by
    simp only [freeWidth?] at matched
    split at matched
    · contradiction
    · cases matched
      exact (List.takeWhile_prefix isFree).length_le
  keeps {text rest} _ matched := by
    cases text with
    | nil => contradiction
    | cons c text =>
        by_cases free : isFree c
        · simp [freeWidth?, free]
        · simp [freeWidth?, free] at matched
  cuts {text rest width} _ within matched := by
    simp only [freeWidth?] at matched ⊢
    split at matched
    · contradiction
    · next nonempty =>
        cases matched
        have same : (text ++ rest).takeWhile isFree = text.takeWhile isFree := by
          rw [List.takeWhile_append] at within ⊢
          split
          · next all =>
              rw [if_pos all, List.length_append] at within
              have none_behind : rest.takeWhile isFree = [] :=
                List.eq_nil_of_length_eq_zero (by omega)
              rw [none_behind, List.append_nil]
              exact ((List.takeWhile_prefix isFree).eq_of_length all).symm
          · rfl
        rw [same] at nonempty ⊢
        rw [if_neg nonempty]

/-! ## The table of a schema -/

theorem cuts_of_mem_literalPatterns {pattern : Pattern} (member : pattern ∈ literalPatterns) :
    pattern.Cuts := by
  simp only [literalPatterns, List.mem_cons, List.not_mem_nil, or_false] at member
  rcases member with rfl | rfl | rfl | rfl | rfl | rfl | rfl | rfl
  · exact cuts_quoted _
  · exact cuts_of_readings (fun _ => rfl) (readingsCut_layout "0000-00-00 00:00" ":00")
  · exact cuts_of_readings (fun _ => rfl) (readingsCut_layout "0000-00-00" "")
  · exact cuts_of_readings (fun _ => rfl) (readingsCut_layout "00:00" ":00")
  · exact cuts_of_readings (fun _ => rfl) readingsCut_shorthand
  · exact cuts_of_readings numberWidth?_eq readingsCut_number
  · exact cuts_of_readings (fun _ => rfl) readingsCut_boolean
  · exact cuts_free _

/-- The patterns of a field are those of its name and of its label. -/
theorem mem_fieldPatterns {field : Field} {pattern : Pattern}
    (member : pattern ∈ fieldPatterns field) :
    pattern = namePattern field.name ∨ pattern = namePattern field.label := by
  simp only [fieldPatterns, List.mem_append, List.mem_singleton] at member
  rcases member with label | name
  · split at label
    · contradiction
    · exact Or.inr (List.mem_singleton.mp label)
  · exact Or.inl name

/-- What holds of all names and labels of a schema holds of the one that a pattern is of. -/
theorem exists_naming_of_all {schema : Schema} {pattern : Pattern} (property : String → Prop)
    (all : ∀ field ∈ schema.fields, property field.name ∧ property field.label)
    (member : pattern ∈ schema.fields.flatMap fieldPatterns) :
    ∃ naming, pattern = namePattern naming ∧ property naming := by
  obtain ⟨field, inSchema, named⟩ := List.mem_flatMap.mp member
  rcases mem_fieldPatterns named with rfl | rfl
  · exact ⟨field.name, rfl, (all field inSchema).1⟩
  · exact ⟨field.label, rfl, (all field inSchema).2⟩

theorem exists_naming {schema : Schema} {pattern : Pattern}
    (member : pattern ∈ schema.fields.flatMap fieldPatterns) :
    ∃ naming, pattern = namePattern naming := by
  obtain ⟨naming, same, _⟩ := exists_naming_of_all (fun _ => True) (by simp) member
  exact ⟨naming, same⟩

/-- No name is found where none of the names and labels is found. -/
theorem firstMatch?_names_eq_none {schema : Schema} {text : List Char} (property : String → Prop)
    (all : ∀ field ∈ schema.fields, property field.name ∧ property field.label)
    (missed : ∀ naming, property naming → (namePattern naming).admitted? text = none) :
    firstMatch? (schema.fields.flatMap fieldPatterns) text = none := by
  apply List.findSome?_eq_none_iff.mpr
  intro pattern member
  obtain ⟨naming, rfl, holds⟩ := exists_naming_of_all property all member
  rw [missed naming holds, Option.map_none]

/-- The patterns of a schema are those of keywords, of names and of literals. -/
theorem mem_patterns_cases {schema : Schema} {pattern : Pattern}
    (member : pattern ∈ schema.patterns) :
    pattern ∈ keywordPatterns ∨ (∃ name, pattern = namePattern name) ∨
      pattern ∈ literalPatterns := by
  simp only [Schema.patterns, List.mem_append] at member
  rcases member with (keyword | names) | literal
  · exact Or.inl keyword
  · exact Or.inr (Or.inl (exists_naming names))
  · exact Or.inr (Or.inr literal)

theorem cuts_of_mem_patterns {schema : Schema} {pattern : Pattern}
    (member : pattern ∈ schema.patterns) : pattern.Cuts := by
  rcases mem_patterns_cases member with keyword | ⟨name, rfl⟩ | literal
  · exact cuts_of_mem_keywordPatterns keyword
  · exact cuts_namePattern name
  · exact cuts_of_mem_literalPatterns literal

end Lexicon

namespace Schema

open Character Lexicon

variable {schema : Schema} {kind : TokenKind}

theorem width_le_of_match? {text : List Char} {width : Nat}
    (matched : schema.match? text = some (kind, width)) : width ≤ text.length :=
  width_le_of_firstMatch? (fun _ member => cuts_of_mem_patterns member) matched

/-- What is matched at the start of a text is matched with the same kind when it stands alone. -/
theorem match?_cut {first : Char} {text rest : List Char} (breaks : BreaksWord rest)
    (matched : schema.match? (first :: text ++ rest) = some (kind, (first :: text).length)) :
    schema.match? (first :: text) = some (kind, (first :: text).length) :=
  firstMatch?_cut (fun _ member => cuts_of_mem_patterns member) breaks matched

/-- A text is found exactly when the first match covers all of it. -/
theorem findExact?_eq_some_iff {text : String} :
    schema.findExact? text = some kind ↔
      schema.match? text.toList = some (kind, text.toList.length) := by
  rw [findExact?, Option.bind_eq_some_iff]
  constructor
  · rintro ⟨⟨_, width⟩, matched, whole⟩
    simp only [Option.ite_none_right_eq_some, Option.some.injEq] at whole
    rw [matched, whole.1, whole.2]
  · intro matched
    exact ⟨_, matched, if_pos rfl⟩

/-- No pattern suggests a space. -/
theorem kind_ne_space_of_match? {text : List Char} {width : Nat}
    (matched : schema.match? text = some (kind, width)) : kind ≠ .space := by
  obtain ⟨pattern, member, rfl, _⟩ := exists_pattern_of_firstMatch? matched
  rcases mem_patterns_cases member with keyword | ⟨name, rfl⟩ | literal
  · have visible : ∀ pattern ∈ keywordPatterns, pattern.kind ≠ .space := by decide
    exact visible pattern keyword
  · exact TokenKind.noConfusion
  · have visible : ∀ pattern ∈ literalPatterns, pattern.kind ≠ .space := by decide
    exact visible pattern literal

/-- No match begins with a blank. -/
theorem match?_blank {first : Char} (rest : List Char) (blank : isBlank first = true) :
    schema.match? (first :: rest) = none := by
  apply List.findSome?_eq_none_iff.mpr
  intro pattern _
  rw [Option.map_eq_none_iff, Pattern.admitted?, Option.filter_eq_none_iff]
  intro width _
  simp [blank]

end Schema

end FilterQuery
