import FilterQuery.Json.Basic
import FilterQuery.Json.Reader

/-!
# Reading JSON documents

Strings and numbers are read strictly where their content matters.  Where it is only skipped,
surrogates need not come in pairs and a number that breaks off is malformed rather than ended.  A
value is read up to a bound on the nesting of its arrays and objects.
-/

namespace FilterQuery.Json

/-- How exactly the scalars of a text are read. -/
structure Rules where
  /-- Whether escaped surrogates have to come in pairs. -/
  pairsSurrogates : Bool
  /-- Whether a number that breaks off at the end of a text counts as ended. -/
  numbersMayEnd : Bool
  /-- Whether a number has to lie in the range of floating point numbers. -/
  limitsNumbers : Bool

/-- The rules for content that matters. -/
def Rules.strict : Rules := ⟨true, true, true⟩

/-- The rules for content that is skipped. -/
def Rules.lenient : Rules := ⟨false, false, false⟩

variable {δ : Type}

/-! ## Strings -/

/-- The value of a hexadecimal digit. -/
def hexValue? (c : Char) : Option Nat :=
  if c.isDigit then some (c.toNat - '0'.toNat)
  else if 'a' ≤ c ∧ c ≤ 'f' then some (c.toNat - 'a'.toNat + 10)
  else if 'A' ≤ c ∧ c ≤ 'F' then some (c.toNat - 'A'.toNat + 10)
  else none

/-- The value of four hexadecimal digits. -/
def hexUnit? (a b c d : Char) : Option Nat := do
  return (((← hexValue? a) * 16 + (← hexValue? b)) * 16 + (← hexValue? c)) * 16 + (← hexValue? d)

/-- Read four hexadecimal digits.  Less than four bytes are too few in any case. -/
def readUnit : List Char → Outcome δ Nat
  | a :: b :: c :: d :: rest =>
      match hexUnit? a b c d with
      | some unit => .ok (unit, rest)
      | none => .error .malformed
  | text => .error (if (String.ofList text).utf8ByteSize < 4 then .ended else .malformed)

theorem length_readUnit {text rest : List Char} {unit : Nat}
    (read : readUnit (δ := δ) text = .ok (unit, rest)) : rest.length < text.length := by
  unfold readUnit at read
  split at read
  · split at read
    · simp_all only [Except.ok.injEq, Prod.mk.injEq, List.length_cons]
      omega
    · simp at read
  · simp at read

/-- Whether a 16-bit unit is the first half of a pair. -/
def isHighSurrogate (unit : Nat) : Bool :=
  0xd800 ≤ unit && unit ≤ 0xdbff

/-- Whether a 16-bit unit is the second half of a pair. -/
def isLowSurrogate (unit : Nat) : Bool :=
  0xdc00 ≤ unit && unit ≤ 0xdfff

/-- The character that a pair of 16-bit units stands for. -/
def pairedChar (high low : Nat) : Char :=
  Char.ofNat (0x10000 + (high - 0xd800) * 0x400 + (low - 0xdc00))

/-- Read the second half of a pair whose first half is known. -/
def readLowHalf (high : Nat) : List Char → Outcome δ Char
  | [] => .error .ended
  | ['\\'] => .error .ended
  | '\\' :: 'u' :: text =>
      match readUnit text with
      | .ok (low, rest) =>
          if isLowSurrogate low then .ok (pairedChar high low, rest) else .error .malformed
      | .error error => .error error
  | _ => .error .malformed

theorem length_readLowHalf {high : Nat} {text rest : List Char} {c : Char}
    (read : readLowHalf (δ := δ) high text = .ok (c, rest)) : rest.length < text.length := by
  unfold readLowHalf at read
  split at read
  · simp at read
  · simp at read
  · split at read
    · next unit =>
        split at read
        · simp only [Except.ok.injEq, Prod.mk.injEq] at read
          have shorter := length_readUnit unit
          rw [← read.2]
          simp only [List.length_cons]
          omega
        · simp at read
    · simp at read
  · simp at read

/-- Read a character that is escaped by its code, behind the letter `u`. -/
def readCoded (rules : Rules) (text : List Char) : Outcome δ Char :=
  match readUnit text with
  | .error error => .error error
  | .ok (unit, rest) =>
      if !rules.pairsSurrogates then .ok (Char.ofNat unit, rest)
      else if isLowSurrogate unit then .error .malformed
      else if isHighSurrogate unit then readLowHalf unit rest
      else .ok (Char.ofNat unit, rest)

theorem length_readCoded {rules : Rules} {text rest : List Char} {c : Char}
    (read : readCoded (δ := δ) rules text = .ok (c, rest)) : rest.length < text.length := by
  unfold readCoded at read
  split at read
  · simp at read
  · next unit =>
      have shorter := length_readUnit unit
      split at read
      · simp_all
      · split at read
        · simp at read
        · split at read
          · exact Nat.lt_trans (length_readLowHalf read) shorter
          · simp_all

/-- The character that a letter stands for behind a backslash. -/
def escaped? : Char → Option Char
  | '"' => some '"'
  | '\\' => some '\\'
  | '/' => some '/'
  | 'b' => some '\x08'
  | 'f' => some '\x0c'
  | 'n' => some '\n'
  | 'r' => some '\x0d'
  | 't' => some '\t'
  | _ => none

/-- Read an escaped character behind its backslash. -/
def readEscaped (rules : Rules) : List Char → Outcome δ Char
  | [] => .error .ended
  | letter :: rest =>
      if letter = 'u' then readCoded rules rest
      else
        match escaped? letter with
        | some c => .ok (c, rest)
        | none => .error .malformed

theorem length_readEscaped {rules : Rules} {text rest : List Char} {c : Char}
    (read : readEscaped (δ := δ) rules text = .ok (c, rest)) : rest.length < text.length := by
  unfold readEscaped at read
  split at read
  · simp at read
  · split at read
    · exact Nat.lt_succ_of_lt (length_readCoded read)
    · split at read
      · simp_all
      · simp at read

/-- Read the rest of a string behind its opening quote. -/
def readStringBody (rules : Rules) (text : List Char) : Outcome δ (List Char) :=
  match text with
  | [] => .error .ended
  | c :: rest =>
      if c = '"' then .ok ([], rest)
      else if c = '\\' then
        match _read : readEscaped rules rest with
        | .error error => .error error
        | .ok (c, rest) => Outcome.map (c :: ·) (readStringBody rules rest)
      else if c.toNat < 0x20 then .error .malformed
      else Outcome.map (c :: ·) (readStringBody rules rest)
termination_by text.length
decreasing_by
  · have shorter := length_readEscaped _read
    simp only [List.length_cons]
    omega
  · simp

theorem length_readStringBody {rules : Rules} {text content rest : List Char}
    (read : readStringBody (δ := δ) rules text = .ok (content, rest)) :
    rest.length < text.length := by
  fun_induction readStringBody (δ := δ) rules text generalizing content rest with
  | case1 => simp at read
  | case2 => simp_all
  | case3 => simp at read
  | case4 text c rest escaped notQuote ih =>
      obtain ⟨_, body, _⟩ := Outcome.map_eq_ok_iff.mp read
      have later := ih body
      have earlier := length_readEscaped escaped
      simp only [List.length_cons]
      omega
  | case5 => simp at read
  | case6 c rest notQuote notEscape visible ih =>
      obtain ⟨_, body, _⟩ := Outcome.map_eq_ok_iff.mp read
      have later := ih body
      simp only [List.length_cons]
      omega

/-- Read a string behind a gap. -/
def stringReader (rules : Rules) : Reader δ String :=
  Reader.byFirst fun first =>
    if first = '"' then
      Reader.skipChar.andThen
        ((⟨readStringBody rules, length_readStringBody⟩ : Reader δ (List Char)).map String.ofList)
    else Reader.fail .malformed

/-! ## Numbers -/

/-- Read a run of digits.  Without any digit the text is malformed, or has ended if nothing
follows and numbers may end. -/
def readDigitRun (rules : Rules) (text : List Char) : Outcome δ (List Char) :=
  match text.takeWhile Char.isDigit, text.dropWhile Char.isDigit with
  | [], rest => .error (if rest.isEmpty && rules.numbersMayEnd then .ended else .malformed)
  | digits, rest => .ok (digits, rest)

/-- Read the whole part of a number, in which a leading zero stands alone. -/
def readWhole (rules : Rules) (text : List Char) : Outcome δ (List Char) :=
  match readDigitRun rules text with
  | .ok ('0' :: _ :: _, _) => .error .malformed
  | outcome => outcome

/-- Read the fraction of a number, if it has one. -/
def readFraction (rules : Rules) : List Char → Outcome δ (Option (List Char))
  | '.' :: text => Outcome.map some (readDigitRun rules text)
  | text => .ok (none, text)

/-- Read the exponent of a number, if it has one. -/
def readExponent (rules : Rules) : List Char → Outcome δ (Option (Bool × List Char))
  | letter :: text =>
      if letter = 'e' ∨ letter = 'E' then
        Outcome.map (fun digits => some ((Binary64.splitSign text).1, digits))
          (readDigitRun rules (Binary64.splitSign text).2)
      else .ok (none, letter :: text)
  | [] => .ok (none, [])

/-- Split a minus sign off a text. -/
def splitMinus : List Char → Bool × List Char
  | '-' :: rest => (true, rest)
  | text => (false, text)

/-- Read the parts of a number. -/
def readParts (rules : Rules) (text : List Char) :
    Except (ReadError δ) (NumberParts × List Char) := do
  let (negative, text) := splitMinus text
  let (whole, text) ← readWhole rules text
  let (fraction, text) ← readFraction rules text
  let (exponent, text) ← readExponent rules text
  return (⟨negative, whole, fraction, exponent⟩, text)

theorem length_readDigitRun {rules : Rules} {text digits rest : List Char}
    (read : readDigitRun (δ := δ) rules text = .ok (digits, rest)) :
    rest.length < text.length := by
  unfold readDigitRun at read
  split at read
  · simp at read
  · next noDigits =>
      simp only [Except.ok.injEq, Prod.mk.injEq] at read
      have parts := congrArg List.length (@List.takeWhile_append_dropWhile _ Char.isDigit text)
      have some := List.length_pos_iff.mpr noDigits
      rw [List.length_append] at parts
      simp_all
      omega

theorem length_splitMinus_le (text : List Char) :
    (splitMinus text).2.length ≤ text.length := by
  unfold splitMinus
  split <;> simp

theorem length_readWhole {rules : Rules} {text digits rest : List Char}
    (read : readWhole (δ := δ) rules text = .ok (digits, rest)) : rest.length < text.length := by
  unfold readWhole at read
  split at read
  · simp at read
  · exact length_readDigitRun read

theorem length_readFraction_le {rules : Rules} {text rest : List Char}
    {digits : Option (List Char)} (read : readFraction (δ := δ) rules text = .ok (digits, rest)) :
    rest.length ≤ text.length := by
  unfold readFraction at read
  split at read
  · obtain ⟨_, run, _⟩ := Outcome.map_eq_ok_iff.mp read
    have shorter := length_readDigitRun run
    simp only [List.length_cons]
    omega
  · simp_all

theorem length_splitSign_le (text : List Char) :
    (Binary64.splitSign text).2.length ≤ text.length := by
  unfold Binary64.splitSign
  split <;> simp

theorem length_readExponent_le {rules : Rules} {text rest : List Char}
    {exponent : Option (Bool × List Char)}
    (read : readExponent (δ := δ) rules text = .ok (exponent, rest)) :
    rest.length ≤ text.length := by
  unfold readExponent at read
  split at read
  · next letter text =>
      split at read
      · obtain ⟨_, run, _⟩ := Outcome.map_eq_ok_iff.mp read
        have shorter := length_readDigitRun run
        have signed := length_splitSign_le text
        simp only [List.length_cons]
        omega
      · simp_all
  · simp_all

theorem length_readParts {rules : Rules} {text rest : List Char} {parts : NumberParts}
    (read : readParts (δ := δ) rules text = .ok (parts, rest)) : rest.length < text.length := by
  unfold readParts at read
  have signed := length_splitMinus_le text
  simp only [bind, Except.bind] at read
  split at read
  · simp at read
  · next whole =>
      have first := length_readWhole whole
      split at read
      · simp at read
      · next fraction =>
          have second := length_readFraction_le fraction
          split at read
          · simp at read
          · next exponent =>
              have third := length_readExponent_le exponent
              simp only [pure, Except.pure, Except.ok.injEq, Prod.mk.injEq] at read
              rw [← read.2]
              omega

/-- Read a number. -/
def numberReader (rules : Rules) : Reader δ JsonNumber :=
  (⟨readParts rules, length_readParts⟩ : Reader δ NumberParts).refine fun parts =>
    match parts.toNumber? with
    | some amount => .ok amount
    | none => if rules.limitsNumbers then .error .malformed else .ok (.integer 0)

/-! ## Values and documents

The members of an object are kept sorted by name.  A document is one value with nothing but a gap
around it. -/

variable {α : Type}

/-- Read a value with at most a given nesting of arrays and objects. -/
def valueReader (rules : Rules) (nesting : Nat) : Reader δ Json :=
  Reader.byFirst fun first =>
    if first = 'n' then (Reader.word 'n' ['u', 'l', 'l']).map fun _ => null
    else if first = 't' then (Reader.word 't' ['r', 'u', 'e']).map fun _ => boolean true
    else if first = 'f' then (Reader.word 'f' ['a', 'l', 's', 'e']).map fun _ => boolean false
    else if first = '"' then (stringReader rules).map string
    else if first = '-' ∨ first.isDigit then (numberReader rules).map number
    else
      match nesting with
      | 0 => Reader.fail .malformed
      | inner + 1 =>
          if first = '[' then
            Reader.skipChar.andThen ((Reader.items ']' (valueReader rules inner)).map array)
          else if first = '\x7b' then
            Reader.skipChar.andThen <|
              (Reader.foldUntil '\x7d' (fun members =>
                (stringReader rules).bind fun name =>
                  (Reader.expect ':').andThen <|
                    (valueReader rules inner).map fun value => insertMember name value members)
                []).map object
          else Reader.fail .malformed

/-- The nesting of arrays and objects that a document may have. -/
def maxNesting : Nat := 127

/-- Skip a value of any nesting, whose scalars are not looked at closely. -/
def valueSkipper : Reader δ Unit where
  run text := ((valueReader Rules.lenient text.length).map fun _ => ()).run text
  consumes := Reader.consumes _

/-- Read a document: one thing with nothing but a gap behind it. -/
def readDocument (reader : Reader δ α) (text : List Char) : Except (ReadError δ) α :=
  match reader.run text with
  | .error error => .error error
  | .ok (a, rest) => if (dropGap rest).isEmpty then .ok a else .error .malformed

/-- The value of a document, or why there is none. -/
def parse (text : String) : Except (ReadError Empty) Json :=
  readDocument (valueReader Rules.strict maxNesting) text.toList

end FilterQuery.Json
