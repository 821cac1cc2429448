import FilterQuery.Proofs.Lexicon.Priority
import FilterQuery.Proofs.Text.Caseless
import FilterQuery.Token.Classify

/-!
# Values and letter case

Only texts keep the case of their letters as values.  Numbers, days, moments and clocks are written
without letters, and the units of a shorthand and the names of the truth values are read in either
case.  So the small form of an operand means the small form of what the operand means.
-/

namespace FilterQuery

open Character

namespace Value

mutual

/-- A value with the ASCII capitals of its texts made small. -/
def toSmall : Value → Value
  | text content => text (FilterQuery.toSmall content)
  | list values => list (toSmallEach values)
  | number amount => number amount
  | boolean truth => boolean truth
  | date day => date day
  | dateTime moment => dateTime moment
  | time seconds => time seconds

/-- A list of values with the ASCII capitals of their texts made small. -/
def toSmallEach : List Value → List Value
  | [] => []
  | value :: rest => value.toSmall :: toSmallEach rest

end

theorem toSmallEach_eq_map (values : List Value) : toSmallEach values = values.map toSmall := by
  induction values with
  | nil => rfl
  | cons value rest ih => rw [toSmallEach, ih, List.map_cons]

mutual

theorem toSmall_toSmall (value : Value) : value.toSmall.toSmall = value.toSmall := by
  match value with
  | text content => rw [toSmall, toSmall, FilterQuery.toSmall_toSmall]
  | list values => rw [toSmall, toSmall, toSmallEach_toSmallEach]
  | number _ | boolean _ | date _ | dateTime _ | time _ => rfl

theorem toSmallEach_toSmallEach (values : List Value) :
    toSmallEach (toSmallEach values) = toSmallEach values := by
  match values with
  | [] => rfl
  | value :: rest =>
      rw [toSmallEach, toSmallEach, toSmall_toSmall value, toSmallEach_toSmallEach rest]

end

end Value

/-! ## Literals without letters -/

theorem letterless_of_isDigit {digits : List Char} (each : ∀ c ∈ digits, c.isDigit = true) :
    Letterless digits :=
  fun c member => (ascii_of_isDigit (each c member)).2

theorem letterless_of_readDigits? {text : List Char} {n : Nat} (read : readDigits? text = some n) :
    Letterless text := by
  rw [readDigits?, Option.ite_none_right_eq_some, Bool.and_eq_true] at read
  exact letterless_of_isDigit (List.all_eq_true.mp read.1.2)

theorem Binary64.letterless_of_splitSign {text : List Char}
    (letterless : Letterless (splitSign text).2) : Letterless text := by
  unfold splitSign at letterless
  split at letterless
  · exact letterless_cons.mpr ⟨rfl, letterless⟩
  · exact letterless_cons.mpr ⟨rfl, letterless⟩
  · exact letterless

theorem Binary64.letterless_of_ofPlainChars? {text : List Char} {x : Binary64}
    (read : ofPlainChars? text = some x) : Letterless text := by
  apply letterless_of_splitSign
  rw [← List.takeWhile_append_dropWhile (p := Char.isDigit) (l := (splitSign text).2),
    letterless_append]
  constructor
  · exact letterless_of_isDigit (List.all_eq_true.mp List.all_takeWhile)
  · simp only [ofPlainChars?] at read
    split at read
    · next ends => rw [ends]; exact fun _ member => absurd member List.not_mem_nil
    · next fraction behind =>
        rcases Option.bind_eq_some_iff.mp read with ⟨_, _, read⟩
        rcases Option.bind_eq_some_iff.mp read with ⟨_, readFraction, _⟩
        rw [behind]
        exact letterless_cons.mpr ⟨rfl, letterless_of_readDigits? readFraction⟩
    · contradiction

theorem Date.letterless_of_ofChars? {text : List Char} {day : Date}
    (read : ofChars? text = some day) : Letterless text := by
  unfold ofChars? at read
  split at read
  · rcases Option.bind_eq_some_iff.mp read with ⟨_, year, read⟩
    rcases Option.bind_eq_some_iff.mp read with ⟨_, month, read⟩
    rcases Option.bind_eq_some_iff.mp read with ⟨_, day, _⟩
    have year := letterless_of_readDigits? year
    have month := letterless_of_readDigits? month
    have day := letterless_of_readDigits? day
    simp_all [letterless_cons]
  · contradiction

theorem DateTime.letterless_of_readTime? {date : Date} {text : List Char} {moment : DateTime}
    (read : readTime? date text = some moment) : Letterless text := by
  unfold readTime? at read
  split at read
  · rcases Option.bind_eq_some_iff.mp read with ⟨_, hour, read⟩
    rcases Option.bind_eq_some_iff.mp read with ⟨_, minute, _⟩
    have hour := letterless_of_readDigits? hour
    have minute := letterless_of_readDigits? minute
    simp_all [letterless_cons]
  · rcases Option.bind_eq_some_iff.mp read with ⟨_, hour, read⟩
    rcases Option.bind_eq_some_iff.mp read with ⟨_, minute, read⟩
    rcases Option.bind_eq_some_iff.mp read with ⟨_, second, _⟩
    have hour := letterless_of_readDigits? hour
    have minute := letterless_of_readDigits? minute
    have second := letterless_of_readDigits? second
    simp_all [letterless_cons]
  · contradiction

theorem DateTime.letterless_of_ofChars? {text : List Char} {moment : DateTime}
    (read : ofChars? text = some moment) : Letterless text := by
  rw [← List.take_append_drop 10 text, letterless_append]
  unfold ofChars? at read
  split at read
  · next time behind =>
      rcases Option.bind_eq_some_iff.mp read with ⟨_, readDate, readTime⟩
      rw [behind]
      exact ⟨Date.letterless_of_ofChars? readDate,
        letterless_cons.mpr ⟨rfl, letterless_of_readTime? readTime⟩⟩
  · contradiction

namespace Duration

theorem letterless_of_ofClock? {text : List Char} {seconds : Nat}
    (read : ofClock? text = some seconds) : Letterless text := by
  unfold ofClock? at read
  split at read
  · rcases Option.bind_eq_some_iff.mp read with ⟨_, hours, read⟩
    rcases Option.bind_eq_some_iff.mp read with ⟨_, minutes, _⟩
    have hours := letterless_of_readDigits? hours
    have minutes := letterless_of_readDigits? minutes
    simp_all [letterless_cons]
  · rcases Option.bind_eq_some_iff.mp read with ⟨_, hours, read⟩
    rcases Option.bind_eq_some_iff.mp read with ⟨_, minutes, read⟩
    rcases Option.bind_eq_some_iff.mp read with ⟨_, seconds, _⟩
    have hours := letterless_of_readDigits? hours
    have minutes := letterless_of_readDigits? minutes
    have seconds := letterless_of_readDigits? seconds
    simp_all [letterless_cons]
  · contradiction

/-! ## Units in either case -/

theorem dropSpace_foldAscii (text : List Char) :
    dropSpace (foldAscii text) = foldAscii (dropSpace text) := by
  cases text with
  | nil => rfl
  | cons c text =>
      by_cases space : c = ' '
      · rw [space]
        rfl
      · have smallSpace : c.toLower ≠ ' ' := fun same => space ((toLower_eq_iff rfl c).mp same)
        simp [dropSpace, space, smallSpace]

theorem isAsciiDigit_toLower (c : Char) : c.toLower.isDigit = c.isDigit :=
  apply_toLower Char.isDigit (by decide) c

theorem readPart?_foldAscii (unit : Char) (text : List Char) :
    readPart? unit (foldAscii text) =
      (readPart? unit text).map fun (value, rest) => (value, foldAscii rest) := by
  have digits : foldAscii (text.takeWhile Char.isDigit) = text.takeWhile Char.isDigit :=
    foldAscii_eq_self (letterless_of_isDigit (List.all_eq_true.mp List.all_takeWhile))
  unfold readPart?
  rw [dropWhile_foldAscii isAsciiDigit_toLower, takeWhile_foldAscii isAsciiDigit_toLower, digits]
  cases text.dropWhile Char.isDigit with
  | nil => rfl
  | cons letter rest =>
      simp only [foldAscii_cons, sameLetter_toLower]
      split
      · rw [Option.map_map]
        rfl
      · rfl

theorem readPart?_getD_foldAscii (unit : Char) (text behind : List Char) :
    (readPart? unit (foldAscii text)).getD (0, foldAscii behind) =
      (((readPart? unit text).getD (0, behind)).1,
        foldAscii ((readPart? unit text).getD (0, behind)).2) := by
  rw [readPart?_foldAscii]
  cases readPart? unit text <;> rfl

theorem readParts_foldAscii (text : List Char) :
    readParts (foldAscii text) = ((readParts text).1, foldAscii (readParts text).2) := by
  simp only [readParts, readPart?_getD_foldAscii, dropSpace_foldAscii]

theorem ofShorthand?_foldAscii (text : List Char) :
    ofShorthand? (foldAscii text) = ofShorthand? text := by
  cases text with
  | nil => rfl
  | cons c text =>
      unfold ofShorthand?
      rw [readParts_foldAscii]
      rcases readParts (c :: text) with ⟨⟨hours, minutes, seconds⟩, left⟩
      cases left <;> rfl

theorem ofChars?_foldAscii (text : List Char) : ofChars? (foldAscii text) = ofChars? text := by
  rw [ofChars?, ofChars?, apply_foldAscii letterless_of_ofClock?, ofShorthand?_foldAscii]

end Duration

theorem readBoolean?_toSmall (text : String) : readBoolean? (toSmall text) = readBoolean? text := by
  have same (name : String) : sameCaseless (toSmall text) name = sameCaseless text name := by
    rw [Bool.eq_iff_iff, sameCaseless_iff_toSmall, sameCaseless_iff_toSmall, toSmall_toSmall]
  rw [readBoolean?, readBoolean?, same, same]

/-! ## Operands -/

/-- The small form of a literal means the small form of its value. -/
theorem ValueType.cast?_toSmall (type : ValueType) (text : String) :
    type.cast? (toSmall text) = (type.cast? text).map Value.toSmall := by
  cases type with
  | string => rw [cast?, cast?, stripQuotes_toSmall, Option.map_some, Value.toSmall]
  | number =>
      rw [cast?, cast?, toList_toSmall, apply_foldAscii Binary64.letterless_of_ofPlainChars?,
        Option.map_map]
      rfl
  | boolean =>
      rw [cast?, cast?, readBoolean?_toSmall, Option.map_map]
      rfl
  | date =>
      rw [cast?, cast?, toList_toSmall, apply_foldAscii Date.letterless_of_ofChars?,
        Option.map_map]
      rfl
  | dateTime =>
      rw [cast?, cast?, toList_toSmall, apply_foldAscii DateTime.letterless_of_ofChars?,
        Option.map_map]
      rfl
  | time =>
      rw [cast?, cast?, toList_toSmall, Duration.ofChars?_foldAscii, Option.map_map]
      rfl

namespace Field

theorem lookup?_toSmall (field : Field) (name : String) :
    field.lookup? (toSmall name) = field.lookup? name := by
  simp only [lookup?, sameCaseless_toSmall]

/-- The small form of an operand means the small form of what the operand means, be it a lookup or a
literal. -/
theorem operand?_toSmall (field : Field) (raw : String) :
    (field.operand? (toSmall raw)).map Value.toSmall = (field.operand? raw).map Value.toSmall := by
  unfold operand? FieldType.cast? substitute
  rw [stripQuotes_toSmall, lookup?_toSmall, lookup?_toSmall]
  cases (field.lookup? raw).or (field.lookup? (stripQuotes raw)) with
  | some lookup => rfl
  | none =>
      simp only [Option.map_none, Option.getD_none]
      rw [ValueType.cast?_toSmall, Option.map_map]
      congr 1
      funext value
      exact value.toSmall_toSmall

theorem isNamed_toSmall (field : Field) (name : String) :
    field.isNamed (toSmall name) = field.isNamed name := by
  rw [isNamed, isNamed, sameCaseless_toSmall, sameCaseless_toSmall]

end Field

theorem Schema.field?_toSmall (schema : Schema) (name : String) :
    schema.field? (toSmall name) = schema.field? name := by
  simp only [field?, Field.isNamed_toSmall]

end FilterQuery
