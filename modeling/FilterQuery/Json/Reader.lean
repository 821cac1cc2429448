/-!
# Readers of JSON text

A reader takes something off the front of a text and says what is left.  Every reader uses up at
least one character; the proof of it is part of the reader, and it is what makes reading a sequence
of unknown length end.  A reader fails at the first problem in reading order: the text is malformed,
it has ended too early, or its content is not what was asked for.
-/

namespace FilterQuery.Json

/-- Why reading failed, with the causes that lie in the content given by a type. -/
inductive ReadError (δ : Type)
  | malformed
  | ended
  | content (cause : δ)

/-- The outcome of reading: what was read and the text behind it. -/
abbrev Outcome (δ α : Type) := Except (ReadError δ) (α × List Char)

/-- Change what was read. -/
def Outcome.map {δ α β : Type} (change : α → β) : Outcome δ α → Outcome δ β
  | .ok (a, rest) => .ok (change a, rest)
  | .error error => .error error

theorem Outcome.map_eq_ok_iff {δ α β : Type} {change : α → β} {outcome : Outcome δ α} {b : β}
    {rest : List Char} :
    outcome.map change = .ok (b, rest) ↔ ∃ a, outcome = .ok (a, rest) ∧ change a = b := by
  cases outcome with
  | error => simp [Outcome.map]
  | ok result =>
      obtain ⟨a, behind⟩ := result
      simp only [Outcome.map, Except.ok.injEq, Prod.mk.injEq]
      exact ⟨fun ⟨changed, same⟩ => ⟨a, ⟨rfl, same⟩, changed⟩,
        fun ⟨_, ⟨read, same⟩, changed⟩ => ⟨read ▸ changed, same⟩⟩

/-- Reading takes something off the front of a text and leaves less than there was. -/
structure Reader (δ α : Type) where
  run : List Char → Outcome δ α
  consumes : ∀ {text : List Char} {a : α} {rest : List Char},
    run text = .ok (a, rest) → rest.length < text.length

/-- Whether a character may stand between the parts of a JSON text. -/
def isGap (c : Char) : Bool :=
  c == ' ' || c == '\t' || c == '\n' || c == '\x0d'

/-- A text without the gap at its start. -/
def dropGap (text : List Char) : List Char :=
  text.dropWhile isGap

theorem length_dropGap_le (text : List Char) : (dropGap text).length ≤ text.length :=
  (List.dropWhile_suffix isGap).length_le

namespace Reader

variable {δ α β σ : Type}

/-- The reader that always fails. -/
def fail (error : ReadError δ) : Reader δ α where
  run _ := .error error
  consumes := by simp

/-- Read one character, whatever it is. -/
def skipChar : Reader δ Unit where
  run
    | [] => .error .ended
    | _ :: rest => .ok ((), rest)
  consumes := by
    intro text a rest read
    cases text with
    | nil => simp at read
    | cons => simp_all

/-- Read one thing and then another that depends on it. -/
def bind (reader : Reader δ α) (next : α → Reader δ β) : Reader δ β where
  run text :=
    match reader.run text with
    | .ok (a, rest) => (next a).run rest
    | .error error => .error error
  consumes := by
    intro text b rest read
    split at read
    · next a middle first =>
        exact Nat.lt_trans ((next a).consumes read) (reader.consumes first)
    · simp at read

/-- Accept, change or refuse what was read. -/
def refine (reader : Reader δ α) (accept : α → Except (ReadError δ) β) : Reader δ β where
  run text :=
    match reader.run text with
    | .ok (a, rest) => (accept a).map fun b => (b, rest)
    | .error error => .error error
  consumes := by
    intro text b rest read
    split at read
    · next a middle first =>
        cases accepted : accept a with
        | error => simp [accepted, Except.map] at read
        | ok =>
            simp only [accepted, Except.map, Except.ok.injEq, Prod.mk.injEq] at read
            exact read.2 ▸ reader.consumes first
    · simp at read

/-- Change what was read. -/
def map (reader : Reader δ α) (change : α → β) : Reader δ β :=
  reader.refine fun a => .ok (change a)

/-- Read one thing and then another, keeping the second. -/
def andThen (reader : Reader δ α) (next : Reader δ β) : Reader δ β :=
  reader.bind fun _ => next

/-- Skip a gap and choose how to go on by the character behind it. -/
def byFirst (choose : Char → Reader δ α) : Reader δ α where
  run text :=
    match dropGap text with
    | [] => .error .ended
    | first :: rest => (choose first).run (first :: rest)
  consumes := by
    intro text a rest read
    split at read
    · simp at read
    · next first remainder present =>
        have shorter := (choose first).consumes read
        rw [← present] at shorter
        exact Nat.lt_of_lt_of_le shorter (length_dropGap_le text)

/-- Read a given character behind a gap. -/
def expect (c : Char) : Reader δ Unit :=
  byFirst fun first => if first = c then skipChar else fail .malformed

/-- Read given letters one by one. -/
def letters : List Char → List Char → Outcome δ Unit
  | [], text => .ok ((), text)
  | _ :: _, [] => .error .ended
  | letter :: word, c :: text => if c = letter then letters word text else .error .malformed

theorem length_letters {word text rest : List Char}
    (read : letters (δ := δ) word text = .ok ((), rest)) :
    rest.length + word.length = text.length := by
  induction word generalizing text with
  | nil => simp_all [letters]
  | cons letter word ih =>
      cases text with
      | nil => simp [letters] at read
      | cons c text =>
          rw [letters] at read
          split at read
          · simpa [← Nat.add_assoc] using ih read
          · simp at read

/-- Read a word with a given first letter. -/
def word (first : Char) (others : List Char) : Reader δ Unit where
  run := letters (first :: others)
  consumes := by
    intro text a rest read
    have lengths := length_letters read
    simp only [List.length_cons] at lengths
    omega

/-- Go on behind an item of a sequence: stop at the closing character, or read the next item
behind a comma. -/
def foldRest (close : Char) (item : σ → Reader δ σ) (state : σ) (text : List Char) :
    Outcome δ σ :=
  match _gap : dropGap text with
  | [] => .error .ended
  | first :: rest =>
      if first = close then .ok (state, rest)
      else if first = ',' then
        match _read : (item state).run rest with
        | .error error => .error error
        | .ok (next, rest) => foldRest close item next rest
      else .error .malformed
termination_by text.length
decreasing_by
  have shorter := (item state).consumes _read
  have gapped := length_dropGap_le text
  rw [_gap, List.length_cons] at gapped
  omega

theorem length_foldRest {close : Char} {item : σ → Reader δ σ} {state result : σ}
    {text rest : List Char} (read : foldRest close item state text = .ok (result, rest)) :
    rest.length < text.length := by
  fun_induction foldRest close item state text with
  | case1 => simp at read
  | case2 state text remainder gap =>
      have gapped := length_dropGap_le text
      rw [gap, List.length_cons] at gapped
      simp only [Except.ok.injEq, Prod.mk.injEq] at read
      rw [← read.2]
      omega
  | case3 => simp at read
  | case4 state text remainder next behind first gap notClose ih =>
      have later := ih read
      have earlier := (item state).consumes first
      have gapped := length_dropGap_le text
      rw [gap, List.length_cons] at gapped
      omega
  | case5 => simp at read

/-- Read a sequence behind its opening character: items separated by commas up to the closing
character, each of which changes a state. -/
def foldUntil (close : Char) (item : σ → Reader δ σ) (state : σ) : Reader δ σ :=
  byFirst fun first =>
    if first = close then skipChar.map fun _ => state
    else
      (item state).bind fun state => ⟨foldRest close item state, length_foldRest⟩

/-- Read a sequence of items of one kind behind its opening character. -/
def items (close : Char) (item : Reader δ α) : Reader δ (List α) :=
  (foldUntil close (fun earlier => item.map (· :: earlier)) []).map List.reverse

end Reader

end FilterQuery.Json
