import FilterQuery.Json.Document
import FilterQuery.Json.Printer
import FilterQuery.Proofs.Outcome

/-!
# Reading what was written

What a reader makes of a written text is said with whatever may follow the text left open.  What
follows ends a value in any case, so a text that is read, or refused, on its own is read or refused
as well inside of an array or an object.
-/

namespace FilterQuery.Json

/-- A text delimits the value before it when it is empty or goes on with a comma, a colon or a
closing bracket. -/
def Delimits (text : List Char) : Prop :=
  ∀ c ∈ text.head?, c = ',' ∨ c = ':' ∨ c = ']' ∨ c = '\x7d'

theorem delimits_nil : Delimits [] := by
  simp [Delimits]

theorem delimits_cons {c : Char} {rest : List Char} :
    Delimits (c :: rest) ↔ c = ',' ∨ c = ':' ∨ c = ']' ∨ c = '\x7d' := by
  simp [Delimits]

/-- A written value opens with a character that is neither a gap nor a closing bracket. -/
def Opens (written : List Char) : Prop :=
  ∃ first others, written = first :: others ∧ isGap first = false ∧ first ≠ ']' ∧ first ≠ '\x7d'

theorem dropGap_cons {first : Char} (noGap : isGap first = false) (rest : List Char) :
    dropGap (first :: rest) = first :: rest :=
  List.dropWhile_cons_of_neg (by simp [noGap])

namespace Reader

variable {δ α β σ : Type}

/-- A reader yields an outcome for a written text when it comes to it whatever delimits the text,
and leaves what follows. -/
def Yields (reader : Reader δ α) (written : List Char) (outcome : Except (ReadError δ) α) : Prop :=
  ∀ rest, Delimits rest → reader.run (written ++ rest) = outcome.map fun a => (a, rest)

variable {reader : Reader δ α} {written : List Char} {outcome : Except (ReadError δ) α}

theorem Yields.refine (yields : reader.Yields written outcome)
    (accept : α → Except (ReadError δ) β) :
    (reader.refine accept).Yields written (outcome.bind accept) := by
  intro rest delimits
  simp only [Reader.refine, yields rest delimits]
  cases outcome <;> rfl

theorem Yields.refine_ok {a : α} (yields : reader.Yields written (.ok a))
    {accept : α → Except (ReadError δ) β} {result : Except (ReadError δ) β}
    (accepted : accept a = result) : (reader.refine accept).Yields written result := by
  subst accepted
  exact yields.refine accept

theorem Yields.map (yields : reader.Yields written outcome) (change : α → β) :
    (reader.map change).Yields written (outcome.map change) := by
  have refined := yields.refine fun a => .ok (change a)
  cases outcome <;> exact refined

/-- A reader may be followed by another one whose text begins with a delimiter. -/
theorem Yields.bind {a : α} (yields : reader.Yields written (.ok a)) {next : α → Reader δ β}
    {others : List Char} {c : Char} (delimits : Delimits [c])
    {result : Except (ReadError δ) β} (behind : (next a).Yields (c :: others) result) :
    (reader.bind next).Yields (written ++ c :: others) result := by
  intro rest delimitsRest
  have first := yields (c :: others ++ rest) delimits
  simp only [Reader.bind, List.append_assoc, first]
  exact behind rest delimitsRest

/-- Whatever a reader goes on with, it fails where it fails. -/
theorem Yields.skip (yields : reader.Yields written outcome) (c : Char) :
    (skipChar.andThen reader).Yields (c :: written) outcome :=
  yields

theorem Yields.byFirst {choose : Char → Reader δ α} {first : Char} {others : List Char}
    (noGap : isGap first = false) (yields : (choose first).Yields (first :: others) outcome) :
    (byFirst choose).Yields (first :: others) outcome := by
  intro rest delimits
  simp only [Reader.byFirst, List.cons_append, dropGap_cons noGap]
  exact yields rest delimits

theorem Yields.expect (yields : reader.Yields written outcome) {c : Char}
    (noGap : isGap c = false) :
    ((Reader.expect c).andThen reader).Yields (c :: written) outcome := by
  intro rest delimits
  simp only [andThen, Reader.bind, Reader.expect, Reader.byFirst, List.cons_append,
    dropGap_cons noGap, if_true]
  exact yields rest delimits

theorem yields_fail (error : ReadError δ) (written : List Char) :
    (fail error : Reader δ α).Yields written (.error error) :=
  fun _ _ => rfl

/-! ## Sequences -/

/-- Written items up to the closing character, each behind a comma. -/
def behindCommas (close : Char) : List (List Char) → List Char
  | [] => [close]
  | written :: rest => ',' :: written ++ behindCommas close rest

/-- Written items separated by commas up to the closing character. -/
def separated (close : Char) : List (List Char) → List Char
  | [] => [close]
  | written :: rest => written ++ behindCommas close rest

/-- What comes of a state when items that are written one behind the other change it one by one. -/
inductive YieldsEach (item : σ → Reader δ σ) :
    σ → List (List Char) → Except (ReadError δ) σ → Prop
  | nil (state : σ) : YieldsEach item state [] (.ok state)
  | refused {state : σ} {written : List Char} {error : ReadError δ} (others : List (List Char))
      (yields : (item state).Yields written (.error error)) :
      YieldsEach item state (written :: others) (.error error)
  | cons {state next : σ} {written : List Char} {others : List (List Char)}
      {outcome : Except (ReadError δ) σ} (yields : (item state).Yields written (.ok next))
      (each : YieldsEach item next others outcome) :
      YieldsEach item state (written :: others) outcome

variable {item : σ → Reader δ σ} {state : σ} {close : Char}

theorem foldRest_close (noGap : isGap close = false) (rest : List Char) :
    foldRest close item state (close :: rest) = .ok (state, rest) := by
  rw [foldRest]
  split
  · next gap =>
      rw [dropGap_cons noGap] at gap
      contradiction
  · next gap =>
      rw [dropGap_cons noGap, List.cons.injEq] at gap
      rw [if_pos gap.1.symm, gap.2]

theorem foldRest_comma (notClose : ',' ≠ close) (text : List Char) :
    foldRest close item state (',' :: text) =
      match (item state).run text with
      | .error error => .error error
      | .ok (next, rest) => foldRest close item next rest := by
  rw [foldRest]
  split
  · next gap =>
      rw [dropGap_cons rfl] at gap
      contradiction
  · next gap =>
      rw [dropGap_cons rfl, List.cons.injEq] at gap
      obtain ⟨rfl, rfl⟩ := gap
      rw [if_neg notClose, if_pos rfl]
      split <;> rename_i read <;> rw [read]

/-- The closing bracket of an array or an object. -/
def Closes (close : Char) : Prop :=
  close = ']' ∨ close = '\x7d'

theorem Closes.noGap (closes : Closes close) : isGap close = false := by
  rcases closes with rfl | rfl <;> rfl

theorem Closes.ne_comma (closes : Closes close) : ',' ≠ close := by
  rcases closes with rfl | rfl <;> decide

theorem delimits_behindCommas (closes : Closes close) (texts : List (List Char))
    (rest : List Char) : Delimits (behindCommas close texts ++ rest) := by
  cases texts with
  | nil => exact delimits_cons.mpr (Or.inr (Or.inr closes))
  | cons written texts => exact delimits_cons.mpr (Or.inl rfl)

theorem YieldsEach.foldRest (closes : Closes close) {texts : List (List Char)}
    {outcome : Except (ReadError δ) σ} (each : YieldsEach item state texts outcome)
    (rest : List Char) :
    foldRest close item state (behindCommas close texts ++ rest) =
      outcome.map fun result => (result, rest) := by
  induction each with
  | nil state => exact foldRest_close closes.noGap rest
  | refused others yields =>
      rw [behindCommas, List.cons_append, List.cons_append, foldRest_comma closes.ne_comma,
        List.append_assoc, yields _ (delimits_behindCommas closes _ _)]
      rfl
  | cons yields each ih =>
      rw [behindCommas, List.cons_append, List.cons_append, foldRest_comma closes.ne_comma,
        List.append_assoc, yields _ (delimits_behindCommas closes _ _)]
      exact ih

/-- A sequence that is not empty begins with its first item. -/
theorem run_foldUntil (closes : Closes close) {written : List Char} (opens : Opens written)
    (rest : List Char) :
    (foldUntil close item state).run (written ++ rest) =
      match (item state).run (written ++ rest) with
      | .error error => .error error
      | .ok (next, rest) => foldRest close item next rest := by
  obtain ⟨first, others, rfl, noGap, notBracket, notBrace⟩ := opens
  have notClose : first ≠ close := by
    rcases closes with rfl | rfl <;> assumption
  simp only [foldUntil, Reader.byFirst, List.cons_append, dropGap_cons noGap, if_neg notClose,
    Reader.bind]
  split <;> rename_i read <;> rw [read]

/-- A sequence comes to what its items come to one after another. -/
theorem YieldsEach.foldUntil (closes : Closes close) {texts : List (List Char)}
    {outcome : Except (ReadError δ) σ} (each : YieldsEach item state texts outcome)
    (opens : ∀ written ∈ texts, Opens written) :
    (foldUntil close item state).Yields (separated close texts) outcome := by
  intro rest _
  cases each with
  | nil =>
      simp only [Reader.foldUntil, separated, Reader.byFirst, List.singleton_append,
        dropGap_cons closes.noGap, if_true]
      rfl
  | refused others yields =>
      rw [separated, List.append_assoc, run_foldUntil closes (opens _ List.mem_cons_self),
        yields _ (delimits_behindCommas closes _ _)]
      rfl
  | cons yields each =>
      rw [separated, List.append_assoc, run_foldUntil closes (opens _ List.mem_cons_self),
        yields _ (delimits_behindCommas closes _ _)]
      exact each.foldRest closes rest

/-- A sequence of items that each come to something comes to the list of it. -/
theorem yields_items (closes : Closes close) {item : Reader δ α} {write : β → List Char}
    {meaning : β → Except (ReadError δ) α} {entries : List β}
    (yields : ∀ entry ∈ entries, item.Yields (write entry) (meaning entry))
    (opens : ∀ entry ∈ entries, Opens (write entry)) :
    (items close item).Yields (separated close (entries.map write)) (entries.mapM meaning) := by
  have each (earlier : List α) : YieldsEach (fun earlier => item.map (· :: earlier)) earlier
      (entries.map write) ((entries.mapM meaning).map fun found => found.reverse ++ earlier) := by
    clear opens
    induction entries generalizing earlier with
    | nil => exact .nil earlier
    | cons entry entries ih =>
        rcases List.forall_mem_cons.mp yields with ⟨first, others⟩
        have changed := first.map (· :: earlier)
        rw [List.map_cons, List.mapM_cons]
        cases meant : meaning entry with
        | error error =>
            rw [meant] at changed
            exact .refused _ changed
        | ok a =>
            rw [meant] at changed
            have behind := ih others (a :: earlier)
            cases found : entries.mapM meaning with
            | error error =>
                rw [found] at behind
                exact .cons changed behind
            | ok as =>
                rw [found] at behind
                have reordered : (a :: as).reverse ++ earlier = as.reverse ++ a :: earlier := by
                  simp
                refine .cons changed ?_
                change YieldsEach _ _ _ (.ok ((a :: as).reverse ++ earlier))
                rw [reordered]
                exact behind
  have folded := (each []).foldUntil closes (by simpa using opens)
  have reversed := folded.map List.reverse
  cases found : entries.mapM meaning with
  | error error =>
      rw [found] at reversed
      exact reversed
  | ok as =>
      rw [found] at reversed
      simpa [items, Except.map] using reversed

end Reader

/-! ## Strings -/

variable {δ α : Type}

/-- A hexadecimal digit has its value. -/
theorem hexUnit?_hexDigit {code : Nat} (control : code < 0x20) :
    hexUnit? '0' '0' (hexDigit (code / 16)) (hexDigit (code % 16)) = some code := by
  have each : ∀ code < 0x20,
      hexUnit? '0' '0' (hexDigit (code / 16)) (hexDigit (code % 16)) = some code := by decide
  exact each code control

/-- A control character that is written by its code is read back. -/
theorem readCoded_hexDigit (rules : Rules) {c : Char} (control : c.toNat < 0x20)
    (text : List Char) :
    readCoded (δ := δ) rules
        ('0' :: '0' :: hexDigit (c.toNat / 16) :: hexDigit (c.toNat % 16) :: text) =
      .ok (c, text) := by
  have low : isLowSurrogate c.toNat = false := by
    simp only [isLowSurrogate, Bool.and_eq_false_iff, decide_eq_false_iff_not]
    omega
  have high : isHighSurrogate c.toNat = false := by
    simp only [isHighSurrogate, Bool.and_eq_false_iff, decide_eq_false_iff_not]
    omega
  simp [readCoded, readUnit, hexUnit?_hexDigit control, low, high]

/-- What an escape stands for is read as one character. -/
theorem readStringBody_backslash {rules : Rules} {escape text : List Char} {c : Char}
    (read : readEscaped (δ := δ) rules escape = .ok (c, text)) :
    readStringBody (δ := δ) rules ('\\' :: escape) =
      (readStringBody rules text).map (c :: ·) := by
  rw [readStringBody, if_neg (by decide), if_pos rfl]
  split <;> rename_i other <;> rw [read] at other <;> cases other
  rfl

/-- A character is written as it is or as an escape that stands for it. -/
theorem escapeChar_cases (rules : Rules) (c : Char) :
    (escapeChar c = [c] ∧ c ≠ '"' ∧ c ≠ '\\' ∧ ¬ c.toNat < 0x20) ∨
      ∃ escape, escapeChar c = '\\' :: escape ∧
        ∀ text, readEscaped (δ := δ) rules (escape ++ text) = .ok (c, text) := by
  by_cases isQuote : c = '"'
  · exact Or.inr ⟨['"'], by rw [escapeChar, if_pos isQuote], fun _ => by rw [isQuote]; rfl⟩
  by_cases isBackslash : c = '\\'
  · refine Or.inr ⟨['\\'], ?_, fun _ => by rw [isBackslash]; rfl⟩
    rw [escapeChar, if_neg isQuote, if_pos isBackslash]
  by_cases control : c.toNat < 0x20
  · refine Or.inr ?_
    rw [escapeChar, if_neg isQuote, if_neg isBackslash, if_pos control]
    -- Five control characters have an escape of their own.
    have named {d : Char} (code : c.toNat = d.toNat) : c = d := Char.toNat_inj.mp code
    split
    · next code => exact ⟨['b'], rfl, fun _ => by rw [@named '\x08' code]; rfl⟩
    · next code => exact ⟨['t'], rfl, fun _ => by rw [@named '\t' code]; rfl⟩
    · next code => exact ⟨['n'], rfl, fun _ => by rw [@named '\n' code]; rfl⟩
    · next code => exact ⟨['f'], rfl, fun _ => by rw [@named '\x0c' code]; rfl⟩
    · next code => exact ⟨['r'], rfl, fun _ => by rw [@named '\x0d' code]; rfl⟩
    · exact ⟨_, rfl, fun text => readCoded_hexDigit rules control text⟩
  · left
    rw [escapeChar, if_neg isQuote, if_neg isBackslash, if_neg control]
    exact ⟨rfl, isQuote, isBackslash, control⟩

/-- A written character is read back, whatever follows. -/
theorem readStringBody_escapeChar (rules : Rules) (c : Char) (text : List Char) :
    readStringBody (δ := δ) rules (escapeChar c ++ text) =
      (readStringBody rules text).map (c :: ·) := by
  rcases escapeChar_cases (δ := δ) rules c with
    ⟨plain, notQuote, notBackslash, visible⟩ | ⟨escape, shape, read⟩
  · rw [plain, List.singleton_append, readStringBody, if_neg notQuote, if_neg notBackslash,
      if_neg visible]
  · rw [shape, List.cons_append]
    exact readStringBody_backslash (read text)

theorem readStringBody_escaped (rules : Rules) (content rest : List Char) :
    readStringBody (δ := δ) rules (content.flatMap escapeChar ++ '"' :: rest) =
      .ok (content, rest) := by
  induction content with
  | nil => rw [List.flatMap_nil, List.nil_append, readStringBody, if_pos rfl]
  | cons c content ih =>
      rw [List.flatMap_cons, List.append_assoc, readStringBody_escapeChar, ih]
      rfl

/-- A written string is read back. -/
theorem yields_stringReader (rules : Rules) (content : String) :
    (stringReader (δ := δ) rules).Yields (quote content) (.ok content) := by
  have body : (⟨readStringBody rules, length_readStringBody⟩ : Reader δ (List Char)).Yields
      (content.toList.flatMap escapeChar ++ ['"']) (.ok content.toList) := by
    intro rest _
    rw [List.append_assoc]
    exact readStringBody_escaped rules content.toList rest
  have whole := (body.map String.ofList).skip '"'
  rw [Except.map, String.ofList_toList] at whole
  refine Reader.Yields.byFirst rfl ?_
  rw [if_pos rfl]
  exact whole

theorem opens_quote (content : String) : Opens (quote content) :=
  ⟨'"', _, rfl, rfl, by decide, by decide⟩

/-! ## Written values -/

theorem compactItems_eq (items : List Json) :
    compactItems items = Reader.separated ']' (items.map compactChars) := by
  have behind (rest : List Json) (first : Json) :
      compactItems (first :: rest) =
        compactChars first ++ Reader.behindCommas ']' (rest.map compactChars) := by
    induction rest generalizing first with
    | nil => rw [compactItems, List.map_nil, Reader.behindCommas]
    | cons next rest ih =>
        rw [compactItems, ih, List.map_cons, Reader.behindCommas, List.cons_append]
        simp
  cases items with
  | nil => rfl
  | cons first rest => exact behind rest first

/-- A member of an object as it is written. -/
def memberChars (member : String × Json) : List Char :=
  quote member.1 ++ ':' :: compactChars member.2

theorem compactMembers_eq (members : List (String × Json)) :
    compactMembers members = Reader.separated '\x7d' (members.map memberChars) := by
  have behind (rest : List (String × Json)) (first : String × Json) :
      compactMembers (first :: rest) =
        memberChars first ++ Reader.behindCommas '\x7d' (rest.map memberChars) := by
    induction rest generalizing first with
    | nil => rw [compactMembers, List.map_nil, Reader.behindCommas, memberChars]
    | cons next rest ih =>
        rw [compactMembers, ih, List.map_cons, Reader.behindCommas, List.cons_append]
        · simp [memberChars]
        · simp
  cases members with
  | nil => rfl
  | cons first rest => exact behind rest first

/-- A document is one written value. -/
theorem readDocument_of_yields {reader : Reader δ α} {written : List Char}
    {outcome : Except (ReadError δ) α} (yields : reader.Yields written outcome) :
    readDocument reader written = outcome := by
  have alone := yields [] delimits_nil
  rw [List.append_nil] at alone
  rw [readDocument, alone]
  cases outcome <;> rfl

end FilterQuery.Json
