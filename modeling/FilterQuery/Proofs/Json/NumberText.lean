import FilterQuery.Proofs.Binary64.Text
import FilterQuery.Proofs.Json.Reading
import FilterQuery.Proofs.Json.Scaling

/-!
# The text of a number read again

A floating point number is written as runs of digits, which are read back one by one.  They stand
for a number that is close to the written one, so that reading them stays in range; for the last two
magnitudes the limit is so near that this is computed.
-/

namespace FilterQuery

/-- Digits, at least one. -/
structure IsDigitRun (digits : List Char) : Prop where
  nonempty : digits ≠ []
  each : ∀ c ∈ digits, c.isDigit = true

theorem isDigitRun_digitsOf (n : Nat) : IsDigitRun (digitsOf n) :=
  ⟨by simp [digitsOf, Nat.toDigits_ne_nil], fun _ => isDigit_of_mem_digitsOf⟩

/-! ## Reading the parts of a number -/

namespace NumberParts

/-- The text of a fraction. -/
def fractionChars : Option (List Char) → List Char
  | none => []
  | some digits => '.' :: digits

/-- The text of an exponent. -/
def exponentChars : Option (Bool × List Char) → List Char
  | none => []
  | some (negative, digits) => 'e' :: (if negative then '-' else '+') :: digits

/-- The text of a number behind its sign. -/
def unsignedChars (parts : NumberParts) : List Char :=
  parts.whole ++ (fractionChars parts.fraction ++ exponentChars parts.exponent)

/-- The text of a number. -/
def toChars (parts : NumberParts) : List Char :=
  Binary64.signText parts.negative ++ parts.unsignedChars

/-- Parts whose text is a number text. -/
structure Sound (parts : NumberParts) : Prop where
  whole : IsDigitRun parts.whole
  noLeadingZero : parts.whole.head? = some '0' → parts.whole = ['0']
  fraction : ∀ digits ∈ parts.fraction, IsDigitRun digits
  exponent : ∀ signed ∈ parts.exponent, IsDigitRun signed.2

end NumberParts

namespace Json

variable {δ : Type} {digits rest : List Char}

open NumberParts

/-- A run of digits is read up to something that is not a digit. -/
theorem readDigitRun_append (rules : Rules) (run : IsDigitRun digits)
    (stops : ∀ c ∈ rest.head?, c.isDigit = false) :
    readDigitRun (δ := δ) rules (digits ++ rest) = .ok (digits, rest) := by
  have noDigits : rest.takeWhile Char.isDigit = [] ∧ rest.dropWhile Char.isDigit = rest := by
    cases rest with
    | nil => exact ⟨rfl, rfl⟩
    | cons first rest =>
        have notDigit := stops first rfl
        exact ⟨List.takeWhile_cons_of_neg (by simp [notDigit]),
          List.dropWhile_cons_of_neg (by simp [notDigit])⟩
  obtain ⟨first, others, rfl⟩ := List.exists_cons_of_ne_nil run.nonempty
  rw [readDigitRun, List.takeWhile_append_of_pos run.each, List.dropWhile_append_of_pos run.each,
    noDigits.1, noDigits.2, List.append_nil]

/-- What may follow the digits of a number: no digit, no point and no letter of an exponent. -/
theorem Delimits.stops (delimits : Delimits rest) :
    ∀ c ∈ rest.head?, c.isDigit = false ∧ c ≠ '.' ∧ c ≠ 'e' ∧ c ≠ 'E' := by
  intro c head
  rcases delimits c head with rfl | rfl | rfl | rfl <;> decide

theorem readExponent_exponentChars (rules : Rules) {exponent : Option (Bool × List Char)}
    (runs : ∀ signed ∈ exponent, IsDigitRun signed.2) (delimits : Delimits rest) :
    readExponent (δ := δ) rules (exponentChars exponent ++ rest) = .ok (exponent, rest) := by
  have stops := delimits.stops
  cases exponent with
  | none =>
      cases rest with
      | nil => rfl
      | cons first rest =>
          obtain ⟨_, _, notSmall, notLarge⟩ := stops first rfl
          rw [exponentChars, List.nil_append, readExponent, if_neg (by simp [notSmall, notLarge])]
  | some signed =>
      obtain ⟨negative, digits⟩ := signed
      have read := @readDigitRun_append δ digits rest rules (runs _ rfl) fun c head =>
        (stops c head).1
      have signSplit : Binary64.splitSign ((if negative then '-' else '+') :: (digits ++ rest)) =
          (negative, digits ++ rest) := by
        cases negative <;> rfl
      rw [exponentChars, List.cons_append, List.cons_append, readExponent, if_pos (Or.inl rfl),
        signSplit, read]
      rfl

theorem readFraction_fractionChars (rules : Rules) {fraction : Option (List Char)}
    (runs : ∀ digits ∈ fraction, IsDigitRun digits)
    (stops : ∀ c ∈ rest.head?, c.isDigit = false ∧ c ≠ '.') :
    readFraction (δ := δ) rules (fractionChars fraction ++ rest) = .ok (fraction, rest) := by
  cases fraction with
  | none =>
      rw [fractionChars, List.nil_append, readFraction]
      rintro text rfl
      exact (stops '.' rfl).2 rfl
  | some digits =>
      rw [fractionChars, List.cons_append, readFraction,
        readDigitRun_append rules (runs _ rfl) fun c head => (stops c head).1]
      rfl

theorem readWhole_append (rules : Rules) (run : IsDigitRun digits)
    (noLeadingZero : digits.head? = some '0' → digits = ['0'])
    (stops : ∀ c ∈ rest.head?, c.isDigit = false) :
    readWhole (δ := δ) rules (digits ++ rest) = .ok (digits, rest) := by
  rw [readWhole, readDigitRun_append rules run stops]
  split
  · next second others behind read =>
      rw [Except.ok.injEq, Prod.mk.injEq] at read
      have alone := noLeadingZero (by rw [read.1]; rfl)
      rw [alone] at read
      simp at read
  · rfl

theorem splitMinus_signText (negative : Bool) (run : IsDigitRun digits) (rest : List Char) :
    splitMinus (Binary64.signText negative ++ (digits ++ rest)) = (negative, digits ++ rest) := by
  cases negative with
  | true => rfl
  | false =>
      obtain ⟨first, others, rfl⟩ := List.exists_cons_of_ne_nil run.nonempty
      have notMinus : first ≠ '-' := by
        rintro rfl
        exact absurd (run.each _ List.mem_cons_self) (by decide)
      change splitMinus (first :: (others ++ rest)) = _
      unfold splitMinus
      split
      · next same => exact absurd (List.cons.inj same).1 notMinus
      · rfl

/-- The parts of a number text are read back. -/
theorem readParts_toChars (rules : Rules) {parts : NumberParts} (sound : parts.Sound)
    (delimits : Delimits rest) :
    readParts (δ := δ) rules (parts.toChars ++ rest) = .ok (parts, rest) := by
  have stops := delimits.stops
  have behindFraction : ∀ c ∈ (exponentChars parts.exponent ++ rest).head?,
      c.isDigit = false ∧ c ≠ '.' := by
    cases parts.exponent with
    | none => exact fun c head => ⟨(stops c head).1, (stops c head).2.1⟩
    | some signed =>
        rintro c ⟨⟩
        decide
  have behindWhole : ∀ c ∈ (fractionChars parts.fraction ++
      (exponentChars parts.exponent ++ rest)).head?, c.isDigit = false := by
    cases parts.fraction with
    | none => exact fun c head => (behindFraction c head).1
    | some digits =>
        rintro c ⟨⟩
        decide
  rw [toChars, unsignedChars, List.append_assoc, List.append_assoc, List.append_assoc, readParts,
    splitMinus_signText _ sound.whole]
  simp only [bind, Except.bind, readWhole_append rules sound.whole sound.noLeadingZero behindWhole,
    readFraction_fractionChars rules sound.fraction behindFraction,
    readExponent_exponentChars rules sound.exponent delimits]
  rfl

/-- A number text whose parts mean a number is read as that number. -/
theorem yields_numberReader (rules : Rules) {parts : NumberParts} (sound : parts.Sound)
    {amount : JsonNumber} (means : parts.toNumber? = some amount) :
    (numberReader (δ := δ) rules).Yields parts.toChars (.ok amount) := by
  have read : (⟨readParts rules, length_readParts⟩ : Reader δ NumberParts).Yields parts.toChars
      (.ok parts) :=
    fun _ delimits => readParts_toChars rules sound delimits
  exact read.refine_ok (by rw [means])

end Json

/-! ## The parts of a written number -/

open Magnitude

namespace NumberParts

variable {parts : NumberParts}

/-- A fraction or an exponent makes a number a floating point number. -/
theorem toNumber?_eq_toFloat? (isFloat : parts.fraction.isSome || parts.exponent.isSome) :
    parts.toNumber? = parts.toFloat? := by
  rw [toNumber?]
  exact if_pos isFloat

/-- A number without an exponent is smaller than the power of ten of its whole digits. -/
theorem value_lt (sound : parts.Sound) (noExponent : parts.exponent = none) :
    parts.value < 10 ^ parts.whole.length := by
  have fractionDigits : ∀ c ∈ parts.fraction.getD [], c.isDigit = true := by
    cases shape : parts.fraction with
    | none => simp
    | some digits => exact (sound.fraction digits shape).each
  have below := valueOfDigits_lt (List.forall_mem_append.mpr ⟨sound.whole.each, fractionDigits⟩)
  have belowRat : (valueOfDigits (parts.whole ++ parts.fraction.getD []) 0 : ℚ) <
      10 ^ parts.whole.length * 10 ^ (parts.fraction.getD []).length := by
    rw [List.length_append, Nat.pow_add] at below
    exact_mod_cast below
  have scale : (0 : ℚ) < 10 ^ (parts.fraction.getD []).length := by positivity
  rw [value, statedExponent, noExponent, Int.zero_sub, zpow_neg, zpow_natCast, ← div_eq_mul_inv,
    div_lt_iff₀ scale]
  exact belowRat

/-- A number with few whole digits and no exponent is in range. -/
theorem exists_toFloat?_of_length (sound : parts.Sound) (noExponent : parts.exponent = none)
    (short : parts.whole.length ≤ 16) : ∃ y, parts.toFloat? = some (.float parts.negative y) := by
  have bound : (10 : ℚ) ^ parts.whole.length ≤ 10 ^ 16 := pow_le_pow_right₀ (by norm_num) short
  have fits : valueOfDigits parts.whole 0 < 2 ^ 64 :=
    calc valueOfDigits parts.whole 0 < 10 ^ parts.whole.length := valueOfDigits_lt sound.whole.each
      _ ≤ 10 ^ 16 := Nat.pow_le_pow_right (by decide) short
      _ < 2 ^ 64 := by decide
  apply exists_toFloat? fits
  have slack_pos : 0 < slack := one_pos.trans_le one_le_slack
  calc parts.value * slack * slack ≤ 10 ^ 16 * 2 * 2 := by
        gcongr
        · exact (value_lt sound noExponent).le.trans bound
        · exact slack_le_two
        · exact slack_le_two
    _ ≤ 4 * 2 ^ 1000 := by
        have enough : 10 ^ 16 * 2 * 2 ≤ 4 * 2 ^ 1000 := by decide +kernel
        exact_mod_cast enough
    _ < limit := four_mul_lt_limit

/-- The significand of a number text scaled up by the power of ten that goes with it. -/
def scaledUp? (parts : NumberParts) : Option Magnitude := do
  let word ← Decimal.nearest? ⟨parts.significand.coefficient, 0⟩
  let power ← Decimal.nearest? ⟨1, parts.significand.exponent.natAbs⟩
  word.mul? power

theorem toFloat?_eq_scaledUp? (up : 0 ≤ parts.significand.exponent)
    (near : parts.significand.exponent.natAbs ≤ maxScale) :
    parts.toFloat? = parts.scaledUp?.map (.float parts.negative) := by
  obtain ⟨power, isPower, _⟩ := exists_power near
  rw [toFloat?, scaledUp?]
  cases Decimal.nearest? ⟨parts.significand.coefficient, 0⟩ with
  | none => rfl
  | some word =>
      simp only [Option.bind_eq_bind, Option.bind_some, scale?_near rfl near isPower, if_pos up,
        isPower]
      cases word.mul? power <;> rfl

end NumberParts

namespace Decimal

variable {d : Decimal}

/-- The parts of a decimal fraction that is written with an exponent. -/
def scientificParts (negative : Bool) (d : Decimal) : NumberParts where
  negative := negative
  whole := (digitsOf d.coefficient).take 1
  fraction :=
    if (digitsOf d.coefficient).tail = [] then none else some (digitsOf d.coefficient).tail
  exponent := some (decide (d.leadingPlace < 0), digitsOf d.leadingPlace.natAbs)

theorem fraction_scientificParts (negative : Bool) (d : Decimal) :
    (d.scientificParts negative).fraction.getD [] = (digitsOf d.coefficient).tail := by
  rw [scientificParts]
  split
  · next alone => exact alone.symm
  · rfl

theorem toChars_scientificParts (negative : Bool) (d : Decimal) :
    (d.scientificParts negative).toChars = Binary64.signText negative ++ d.scientific := by
  obtain ⟨first, rest, digits⟩ := List.exists_cons_of_ne_nil (isDigitRun_digitsOf _).nonempty
  rw [NumberParts.toChars, NumberParts.unsignedChars, scientificParts, scientific, digits]
  cases rest <;>
    simp [NumberParts.fractionChars, NumberParts.exponentChars]

theorem sound_scientificParts (negative : Bool) (d : Decimal) :
    (d.scientificParts negative).Sound := by
  obtain ⟨nonempty, each⟩ := isDigitRun_digitsOf d.coefficient
  obtain ⟨first, rest, digits⟩ := List.exists_cons_of_ne_nil nonempty
  rw [digits, List.forall_mem_cons] at each
  rw [scientificParts, digits]
  refine ⟨⟨List.cons_ne_nil _ _, List.forall_mem_singleton.mpr each.1⟩, ?_, ?_, ?_⟩
  · rintro ⟨⟩
    rfl
  · intro fraction shape
    rw [Option.mem_def, Option.ite_none_left_eq_some, Option.some.injEq] at shape
    obtain ⟨nonempty, rfl⟩ := shape
    exact ⟨nonempty, each.2⟩
  · rintro _ ⟨⟩
    exact isDigitRun_digitsOf _

theorem statedExponent_scientificParts (negative : Bool) (d : Decimal) :
    (d.scientificParts negative).statedExponent = d.leadingPlace := by
  simp only [NumberParts.statedExponent, scientificParts, valueOfDigits_digitsOf,
    decide_eq_true_eq]
  split <;> omega

/-- What is written with an exponent stands for the decimal fraction. -/
theorem value_scientificParts (negative : Bool) (d : Decimal) :
    (d.scientificParts negative).value = d.toRat := by
  have nonempty := List.length_pos_iff.mpr (isDigitRun_digitsOf d.coefficient).nonempty
  have digits : (d.scientificParts negative).whole ++ (digitsOf d.coefficient).tail =
      digitsOf d.coefficient := by
    rw [← List.drop_one]
    exact List.take_append_drop 1 _
  have places : d.leadingPlace - ((digitsOf d.coefficient).tail.length : Int) = d.exponent := by
    rw [leadingPlace, List.length_tail]
    omega
  rw [NumberParts.value, fraction_scientificParts, digits, valueOfDigits_digitsOf,
    statedExponent_scientificParts, places, toRat]

/-- A decimal fraction with an exponent is in range when it stays two roundings below the limit. -/
theorem exists_toFloat?_scientificParts (negative : Bool)
    (small : d.toRat * slack * slack < limit) :
    ∃ y, (d.scientificParts negative).toFloat? = some (.float negative y) := by
  have short : valueOfDigits (d.scientificParts negative).whole 0 < 2 ^ 64 :=
    calc valueOfDigits (d.scientificParts negative).whole 0
        < 10 ^ (d.scientificParts negative).whole.length :=
          valueOfDigits_lt (d.sound_scientificParts negative).whole.each
      _ ≤ 10 ^ 1 := Nat.pow_le_pow_right (by decide) (List.length_take_le _ _)
      _ < 2 ^ 64 := by decide
  apply NumberParts.exists_toFloat? short
  rw [value_scientificParts]
  exact small

/-- Up to the last two magnitudes, rounding does not lead out of range. -/
theorem toRat_mul_slack_lt {x : Magnitude} (read : d.nearest? = some x) (nonzero : x.rank ≠ 0)
    (notLast : x.rank + 2 < 2047 * 2 ^ 52) : d.toRat * slack * slack < limit := by
  have close := toRat_le_of_nearest? read nonzero
  have below := toRat_le_of_rank notLast
  have slack_pos : 0 < slack := one_pos.trans_le one_le_slack
  have whole : (2 : ℚ) ^ 1024 = 2 ^ 54 * 2 ^ 970 := pow_add 2 54 970
  have double : (2 : ℚ) ^ 971 = 2 ^ 970 * 2 := pow_succ 2 970
  have step : (0 : ℚ) < 2 ^ 970 := by positivity
  rw [double] at below
  rw [limit, whole]
  generalize (2 : ℚ) ^ 970 = unit at *
  have bound : d.toRat ≤ (2 ^ 54 - 5) * unit := by linarith
  have factor : ((2 : ℚ) ^ 54 - 5) * slack * slack < 2 ^ 54 - 1 := by
    rw [slack]
    norm_num
  calc d.toRat * slack * slack ≤ (2 ^ 54 - 5) * unit * slack * slack := by gcongr
    _ = (2 ^ 54 - 5) * slack * slack * unit := by ring
    _ < (2 ^ 54 - 1) * unit := mul_lt_mul_of_pos_right factor step
    _ = 2 ^ 54 * unit - unit := by ring

end Decimal

namespace Magnitude

/-- The last two magnitudes. -/
def fromLast (behind : Fin 2) : Magnitude :=
  ⟨2047 * 2 ^ 52 - 1 - behind, by rw [Nat.pow_eq]; omega⟩

theorem exists_fromLast {x : Magnitude} (last : 2047 * 2 ^ 52 ≤ x.rank + 2) :
    ∃ behind, x = fromLast behind := by
  have below := x.rank_lt
  rw [Nat.pow_eq] at below
  refine ⟨⟨2047 * 2 ^ 52 - 1 - x.rank, by omega⟩, ?_⟩
  rw [fromLast, mk.injEq]
  dsimp only
  omega

/-- The decimals that the last two magnitudes are written as. -/
def lastShortest : Fin 2 → Decimal
  | 0 => ⟨17976931348623157, 292⟩
  | 1 => ⟨17976931348623155, 292⟩

theorem shortest_fromLast (behind : Fin 2) :
    (fromLast behind).shortest .toEven = lastShortest behind := by
  decide +kernel +revert

/-- The limit is so near to the last magnitudes that only computing tells that they stay below. -/
theorem scaledUp?_fromLast (behind : Fin 2) (negative : Bool) :
    let parts := ((fromLast behind).shortest .toEven).scientificParts negative
    0 ≤ parts.significand.exponent ∧ parts.significand.exponent.natAbs ≤ NumberParts.maxScale ∧
      parts.scaledUp?.isSome = true := by
  rw [shortest_fromLast]
  decide +kernel +revert

end Magnitude

namespace JsonNumber

/-- A magnitude that is written with an exponent is read again as a number. -/
theorem exists_toFloat?_scientific (negative : Bool) {x : Magnitude} (nonzero : x.rank ≠ 0) :
    ∃ y, ((x.shortest .toEven).scientificParts negative).toFloat? = some (.float negative y) := by
  by_cases notLast : x.rank + 2 < 2047 * 2 ^ 52
  · apply Decimal.exists_toFloat?_scientificParts
    exact Decimal.toRat_mul_slack_lt (x.nearest?_shortest .toEven) nonzero notLast
  · obtain ⟨behind, rfl⟩ := exists_fromLast (Nat.not_lt.mp notLast)
    obtain ⟨up, near, isSome⟩ := scaledUp?_fromLast behind negative
    obtain ⟨y, scaled⟩ := Option.isSome_iff_exists.mp isSome
    refine ⟨y, ?_⟩
    rw [NumberParts.toFloat?_eq_scaledUp? up near, scaled]
    rfl

/-- A decimal fraction below `10 ^ 16` is written as few whole digits and a fraction. -/
theorem exists_parts_pointed (negative : Bool) {d : Decimal} (something : d.coefficient ≠ 0)
    (small : d.leadingPlace < 16) :
    ∃ whole fraction, (⟨negative, whole, some fraction, none⟩ : NumberParts).Sound ∧
      whole.length ≤ 16 ∧ whole ++ '.' :: fraction = d.pointed := by
  have notZero := head?_digitsOf_ne (Nat.pos_of_ne_zero something)
  have nonempty := (isDigitRun_digitsOf d.coefficient).nonempty
  unfold Decimal.leadingPlace at small
  rw [Decimal.pointed]
  split
  · next isWhole =>
      have positional := Binary64.positional_whole isWhole
      refine ⟨d.positional, ['0'], ⟨⟨Binary64.positional_ne_nil isWhole,
        Binary64.isDigit_of_mem_positional isWhole⟩, ?_, ?_, ?_⟩, ?_, rfl⟩
      · rw [positional, List.head?_append_of_ne_nil _ nonempty]
        exact fun zero => absurd zero notZero
      · rintro _ ⟨⟩
        exact ⟨List.cons_ne_nil _ _, by simp⟩
      · rintro _ ⟨⟩
      · rw [positional, List.length_append, List.length_replicate]
        omega
  · next notWhole =>
      obtain ⟨whole, fraction, shape, wholeNonempty, fractionNonempty, padded, places⟩ :=
        Binary64.positional_fraction (Int.not_le.mp notWhole)
      have each : ∀ c ∈ whole ++ fraction, c.isDigit = true := by
        rw [padded]
        exact fun _ => isDigit_of_mem_paddedDigits
      rcases List.forall_mem_append.mp each with ⟨wholeDigits, fractionDigits⟩
      have lengths := congrArg List.length padded
      rw [List.length_append, paddedDigits, List.length_append, List.length_replicate] at lengths
      refine ⟨whole, fraction, ⟨⟨wholeNonempty, wholeDigits⟩, ?_, ?_, ?_⟩, ?_, shape.symm⟩
      · intro zero
        by_cases fits : (digitsOf d.coefficient).length ≤ (-d.exponent).toNat
        · obtain ⟨first, rfl⟩ := List.length_eq_one_iff.mp (by omega : whole.length = 1)
          rw [List.head?_cons, Option.some.injEq] at zero
          rw [zero]
        · -- Nothing is padded, so the first digit is that of the coefficient.
          have unpadded : (-d.exponent).toNat + 1 - (digitsOf d.coefficient).length = 0 := by omega
          rw [paddedDigits, unpadded, List.replicate_zero, List.nil_append] at padded
          rw [← padded, List.head?_append_of_ne_nil _ wholeNonempty] at notZero
          exact absurd zero notZero
      · rintro _ ⟨⟩
        exact ⟨fractionNonempty, fractionDigits⟩
      · rintro _ ⟨⟩
      · omega

/-- A magnitude that is written as few whole digits and a fraction is read again as a number. -/
theorem exists_parts_of_digits {negative : Bool} {x : Magnitude} {whole fraction : List Char}
    (sound : (⟨negative, whole, some fraction, none⟩ : NumberParts).Sound)
    (short : whole.length ≤ 16) (written : whole ++ '.' :: fraction = magnitudeChars x) :
    ∃ (parts : NumberParts) (y : Magnitude), parts.Sound ∧
      parts.toChars = (float negative x).toChars ∧ parts.toNumber? = some (.float negative y) := by
  obtain ⟨y, read⟩ := NumberParts.exists_toFloat?_of_length sound rfl short
  refine ⟨_, y, sound, ?_, (NumberParts.toNumber?_eq_toFloat? rfl).trans read⟩
  rw [toChars, ← written, NumberParts.toChars, NumberParts.unsignedChars,
    NumberParts.fractionChars, NumberParts.exponentChars, List.append_nil]

/-- A written floating point number is read again as some number of the same sign. -/
theorem exists_parts (negative : Bool) (x : Magnitude) :
    ∃ (parts : NumberParts) (y : Magnitude), parts.Sound ∧
      parts.toChars = (float negative x).toChars ∧ parts.toNumber? = some (.float negative y) := by
  have read := x.nearest?_shortest .toEven
  by_cases nothing : x.rank = 0
  · apply @exists_parts_of_digits negative x ['0'] ['0']
    · have zero : IsDigitRun ['0'] := ⟨List.cons_ne_nil _ _, by simp⟩
      exact ⟨zero, fun _ => rfl, by rintro _ ⟨⟩; exact zero, by rintro _ ⟨⟩⟩
    · decide
    · rw [magnitudeChars, if_pos nothing]
      rfl
  · by_cases middle : -5 ≤ (x.shortest .toEven).leadingPlace ∧
        (x.shortest .toEven).leadingPlace < 16
    · obtain ⟨whole, fraction, sound, short, written⟩ :=
        exists_parts_pointed negative (Decimal.coefficient_ne_zero read nothing) middle.2
      apply exists_parts_of_digits sound short
      rw [magnitudeChars, if_neg nothing, written]
      exact (if_pos middle).symm
    · obtain ⟨y, readAgain⟩ := exists_toFloat?_scientific negative nothing
      refine ⟨_, y, Decimal.sound_scientificParts negative _, ?_,
        (NumberParts.toNumber?_eq_toFloat? (Bool.or_true _)).trans readAgain⟩
      rw [Decimal.toChars_scientificParts, toChars, magnitudeChars, if_neg nothing]
      exact congrArg _ (if_neg middle).symm

end JsonNumber

end FilterQuery
