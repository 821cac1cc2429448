import FilterQuery.Proofs.Token.Acceptance
import FilterQuery.Query.Check
import Mathlib.Data.List.Induction

/-!
# Contexts as histories

The context behind a list of tokens is a view of the list: its field and operator are those of the
last tokens that tell of one, its latest kinds are those of the last tokens, and its counters count
parentheses.  So a context that is carried along is the one that a scan of the whole list finds.
Scanning a text judges each token in the context that the tokens before it leave behind.
-/

namespace FilterQuery

namespace Context

variable (schema : Schema) (context : Context)

/-- A space leaves its mark only as the latest token of all. -/
theorem push_space {token : Token} (isSpace : token.kind = .space) :
    context.push schema token = { context with last := some .space } := by
  rw [push, if_pos isSpace]

theorem push_visible {token : Token} (visible : token.kind ≠ .space) :
    context.push schema token = context.advance schema token := by
  rw [push, if_neg visible]

theorem previous_push {token : Token} (visible : token.kind ≠ .space) :
    (context.push schema token).previous = some token.kind := by
  rw [push_visible schema context visible]
  cases shape : token.kind <;> simp [advance, shape]

theorem last_push (token : Token) : (context.push schema token).last = some token.kind := by
  cases shape : token.kind <;> simp [push, advance, shape]

theorem opened_push (token : Token) :
    (context.push schema token).opened =
      context.opened + if token.kind = .openGroup then 1 else 0 := by
  cases shape : token.kind <;> simp [push, advance, shape]

theorem closed_push (token : Token) :
    (context.push schema token).closed =
      context.closed + if token.kind = .closeGroup then 1 else 0 := by
  cases shape : token.kind <;> simp [push, advance, shape]

theorem operator_push (token : Token) :
    (context.push schema token).operator =
      if token.kind.isOperator then some token.kind.toOperator else context.operator := by
  cases shape : token.kind <;>
    simp [push, advance, shape, TokenKind.isOperator, TokenKind.isComparer, TokenKind.isPresence]

theorem field_push (token : Token) :
    (context.push schema token).field =
      if token.kind = .field then token.value.content?.bind schema.field? else context.field := by
  cases shape : token.kind <;> simp [push, advance, shape]

/-- Behind a field token stands the field that it names. -/
theorem field_push_of_names {token : Token} {field : Field} (names : token.Names schema field) :
    (context.push schema token).field = some field := by
  rw [field_push, if_pos names.kind_eq]
  rcases names with ⟨name, rfl, found⟩
  exact found

/-- The context behind further tokens. -/
def after (tokens : List Token) : Context :=
  tokens.foldl (push schema) context

@[simp]
theorem after_nil : context.after schema [] = context :=
  rfl

@[simp]
theorem after_cons (token : Token) (tokens : List Token) :
    context.after schema (token :: tokens) = (context.push schema token).after schema tokens :=
  rfl

theorem after_append (front back : List Token) :
    context.after schema (front ++ back) = (context.after schema front).after schema back := by
  simp [after]

end Context

/-- The last token of a list whose kind has a property. -/
def latest? (property : TokenKind → Bool) (tokens : List Token) : Option Token :=
  tokens.reverse.find? (property ·.kind)

theorem latest?_append_singleton (property : TokenKind → Bool) (tokens : List Token)
    (token : Token) :
    latest? property (tokens ++ [token]) =
      if property token.kind then some token else latest? property tokens := by
  rw [latest?, List.reverse_append, List.reverse_singleton, List.singleton_append, List.find?_cons]
  cases property token.kind <;> rfl

theorem lastVisible?_append_singleton (tokens : List Token) (token : Token) :
    lastVisible? (tokens ++ [token]) =
      if token.kind = .space then lastVisible? tokens else some token := by
  by_cases isSpace : token.kind = .space <;> simp [lastVisible?, isSpace]

/-! ## What a context keeps of a list of tokens -/

namespace Context

variable (schema : Schema)

/-- What every token of some kinds overwrites, and no other token, is left by the last of them. -/
theorem kept_after {α : Type} {slot : Context → Option α} {property : TokenKind → Bool}
    {mark : Token → Option α}
    (kept : ∀ context token, slot (push schema context token) =
      if property token.kind then mark token else slot context)
    (context : Context) (tokens : List Token) :
    slot (context.after schema tokens) = (latest? property tokens).elim (slot context) mark := by
  induction tokens using List.reverseRecOn with
  | nil => rfl
  | append_singleton tokens token ih =>
      rw [after_append, after_cons, after_nil, kept, ih, latest?_append_singleton]
      split <;> rfl

/-- What every token of a kind raises by one, and no other token, counts them. -/
theorem counted_after {slot : Context → Nat} {kind : TokenKind}
    (counted : ∀ context token, slot (push schema context token) =
      slot context + if token.kind = kind then 1 else 0)
    (context : Context) (tokens : List Token) :
    slot (context.after schema tokens) = slot context + countKind kind tokens := by
  induction tokens generalizing context with
  | nil => rfl
  | cons token tokens ih =>
      rw [after_cons, ih, counted]
      by_cases same : token.kind = kind
      · simp only [countKind, List.countP_cons, same, beq_self_eq_true, if_true]
        omega
      · simp [countKind, same]

variable (context : Context) (tokens : List Token)

/-- The latest field is the one that the last field token names, or none if it names none. -/
theorem field_after :
    (context.after schema tokens).field =
      (latest? (·.isField) tokens).elim context.field
        fun token => token.value.content?.bind schema.field? := by
  apply kept_after
  intro context token
  rw [field_push]
  cases token.kind <;> rfl

/-- The latest operator is that of the last operator token. -/
theorem operator_after :
    (context.after schema tokens).operator =
      ((latest? (·.isOperator) tokens).map (·.kind.toOperator)).or context.operator := by
  rw [kept_after schema (operator_push schema) context tokens]
  cases latest? (·.isOperator) tokens <;> rfl

/-- The latest kind is that of the last token. -/
theorem last_after :
    (context.after schema tokens).last = (tokens.getLast?.map (·.kind)).or context.last := by
  induction tokens using List.reverseRecOn with
  | nil => rfl
  | append_singleton tokens token _ =>
      rw [after_append, after_cons, after_nil, last_push, List.getLast?_concat]
      rfl

/-- The latest kind that is not a space is that of the last visible token. -/
theorem previous_after :
    (context.after schema tokens).previous =
      ((lastVisible? tokens).map (·.kind)).or context.previous := by
  have kept (context : Context) (token : Token) :
      (context.push schema token).previous =
        if token.kind != .space then some token.kind else context.previous := by
    by_cases isSpace : token.kind = .space
    · rw [push_space schema context isSpace, isSpace]
      rfl
    · rw [previous_push schema context isSpace, if_pos (bne_iff_ne.mpr isSpace)]
  have found : (context.after schema tokens).previous =
      (latest? (· != .space) tokens).elim context.previous fun token => some token.kind :=
    kept_after schema kept context tokens
  rw [found, latest?, lastVisible?]
  cases tokens.reverse.find? (·.kind != .space) <;> rfl

/-- The counter of open groups counts opening parentheses. -/
theorem opened_after :
    (context.after schema tokens).opened = context.opened + countKind .openGroup tokens :=
  counted_after schema (opened_push schema) context tokens

/-- The counter of closed groups counts closing parentheses. -/
theorem closed_after :
    (context.after schema tokens).closed = context.closed + countKind .closeGroup tokens :=
  counted_after schema (closed_push schema) context tokens

end Context

attribute [ext] Context

/-- What a scan of a whole list of tokens finds: its last field and operator, its last kinds and how
many parentheses it has. -/
def Context.ofTokens (schema : Schema) (tokens : List Token) : Context where
  field := (latest? (·.isField) tokens).bind fun token => token.value.content?.bind schema.field?
  operator := (latest? (·.isOperator) tokens).map (·.kind.toOperator)
  previous := (lastVisible? tokens).map (·.kind)
  last := tokens.getLast?.map (·.kind)
  opened := countKind .openGroup tokens
  closed := countKind .closeGroup tokens

/-- The context that is carried along from token to token is the one that a scan of the whole list
finds, whatever the tokens are. -/
theorem Context.after_start_eq_ofTokens (schema : Schema) (tokens : List Token) :
    start.after schema tokens = ofTokens schema tokens := by
  ext1
  case field =>
    rw [field_after, start, ofTokens]
    cases latest? (·.isField) tokens <;> rfl
  case operator => rw [operator_after, start, Option.or_none, ofTokens]
  case previous => rw [previous_after, start, Option.or_none, ofTokens]
  case last => rw [last_after, start, Option.or_none, ofTokens]
  case opened => rw [opened_after, start, Nat.zero_add, ofTokens]
  case closed => rw [closed_after, start, Nat.zero_add, ofTokens]

/-! ## Tokens that are judged -/

/-- Tokens that are judged one by one, each behind those before it. -/
inductive Run (schema : Schema) : Context → List Token → Prop
  | nil (context : Context) : Run schema context []
  | cons {context : Context} {token : Token} {tokens : List Token}
      (judged : Judged schema context token)
      (rest : Run schema (context.push schema token) tokens) :
      Run schema context (token :: tokens)

/-- The tokens of a text are judged one by one. -/
theorem Schema.run_scanFrom (schema : Schema) (context : Context) (text : List Char) :
    Run schema context (schema.scanFrom context text) := by
  fun_induction schema.scanFrom context text with
  | case1 context => exact Run.nil context
  | case2 context first rest piece remainder token classified ih =>
      exact Run.cons (judged_of_classify classified) ih
  | case3 context first rest piece remainder classified ih => exact ih

end FilterQuery
