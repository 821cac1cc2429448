import FilterQuery.Proofs.Query.Composition
import FilterQuery.Proofs.Query.ConditionReading

/-!
# Rendered expressions read back

An expression that was compiled from a query is written as a text query that compiles to the normal
form of the expression.  A connective swallows the whole rest of its group, so its children are read
two at a time; a group is read whole, so whatever is put in parentheses is one child.
-/

namespace FilterQuery

open Lexicon

/-- The text between the children of a connective has its keyword between blanks. -/
theorem Logic.exists_keyword {connective : Logic} (known : connective ≠ .unknown)
    (schema : Schema) :
    ∃ kind keyword, kind.isLogic = true ∧ kind.toLogic = connective ∧
      connective.joiner.toList = ' ' :: (String.toList keyword ++ [' ']) ∧
      ∀ rest, schema.match? (keyword.toList ++ ' ' :: rest) =
        some (kind, keyword.toList.length) := by
  have breaks (rest : List Char) : Character.BreaksWord (' ' :: rest) :=
    Character.breaksWord_cons.mpr (by decide)
  cases connective with
  | and => exact ⟨.and, "and", rfl, rfl, rfl, fun rest => schema.match?_and (breaks rest)⟩
  | or => exact ⟨.or, "or", rfl, rfl, rfl, fun rest => schema.match?_or (breaks rest)⟩
  | unknown => contradiction

/-- No literal reaches over a connective. -/
theorem Logic.fence_joiner {connective : Logic} (known : connective ≠ .unknown)
    (rest : List Char) : Fence (connective.joiner.toList ++ rest) := by
  cases connective with
  | and => exact @Fence.blank 'a' _ (by decide)
  | or => exact @Fence.blank 'o' _ (by decide)
  | unknown => contradiction

namespace Schema

variable {schema : Schema} {text behind : List Char} {expression : Expression}

/-- What is read in parentheses is read whole. -/
theorem readsWhole_group (reads : schema.Reads text (')' :: behind) expression) :
    schema.ReadsWhole ('(' :: (text ++ [')'])) behind expression := by
  intro context pending agrees
  obtain ⟨opened, openAgrees⟩ := assemble_open agrees (text ++ ')' :: behind)
  obtain ⟨sides, inside, current, hasRead, read⟩ := reads _ _ openAgrees
  obtain ⟨node, finished, meant⟩ := hasRead.means
  obtain ⟨next, notSpace, closedAgrees, closed⟩ := assemble_close hasRead.agrees finished behind
  have text_eq : '(' :: (text ++ [')']) ++ behind = '(' :: (text ++ ')' :: behind) := by simp
  rw [ReadsWith, text_eq]
  exact ⟨next, _, ⟨notSpace, closedAgrees, _, rfl, meant⟩, opened.trans (read.trans closed)⟩

/-- A text that is read whole and a text behind a connective are read as both joined by it. -/
theorem reads_join {connective : Logic} (known : connective ≠ .unknown) {rest : List Char}
    {second : Expression}
    (readsFirst : schema.ReadsWhole text (connective.joiner.toList ++ (rest ++ behind)) expression)
    (readsRest : schema.Reads rest behind second) :
    schema.Reads (text ++ (connective.joiner.toList ++ rest)) behind
      (.logic connective [expression, second]) := by
  obtain ⟨kind, keyword, isLogic, toLogic_eq, joiner_eq, matched⟩ :=
    Logic.exists_keyword known schema
  rw [joiner_eq] at readsFirst ⊢
  intro context pending agrees
  obtain ⟨behindFirst, current, hasRead, firstRead⟩ := readsFirst context pending agrees
  obtain ⟨left, finished, meantLeft⟩ := hasRead.means
  obtain ⟨behindConnective, connectiveAgrees, connectiveRead⟩ :=
    hasRead.agrees.assemble_connective finished hasRead.notSpace isLogic (matched (rest ++ behind))
  obtain ⟨sides, next, last, restHasRead, restRead⟩ := readsRest _ _ connectiveAgrees
  obtain ⟨node, restFinished, meantRest⟩ := restHasRead.means
  have connectiveLogic : (Token.ofText kind keyword).kind.isLogic = true := isLogic
  have stands : (Token.ofText kind keyword).kind.toLogic = connective := toLogic_eq
  have meant := ofNode_join connectiveLogic meantLeft meantRest
  rw [← Node.joinBehind_append, stands] at meant
  -- The first text becomes the earliest of the left sides that are put aside.
  have pending_eq : Assembly.putAside (sides ++ [(left, Token.ofText kind keyword)]) ++ pending =
      Assembly.putAside sides ++ .joined left (Token.ofText kind keyword) :: pending := by
    simp [Assembly.putAside]
  have behind_eq : ' ' :: (keyword.toList ++ [' ']) ++ (rest ++ behind) =
      ' ' :: (keyword.toList ++ ' ' :: (rest ++ behind)) := by
    simp
  have text_eq : text ++ (' ' :: (keyword.toList ++ [' ']) ++ rest) ++ behind =
      text ++ ' ' :: (keyword.toList ++ ' ' :: (rest ++ behind)) := by
    simp
  refine ⟨sides ++ [(left, Token.ofText kind keyword)], next, last, ⟨restHasRead.notSpace, ?_,
    node, restFinished, meant⟩, ?_⟩
  · rw [pending_eq]
    exact restHasRead.agrees
  · rw [pending_eq, text_eq]
    rw [behind_eq] at firstRead
    exact firstRead.trans (connectiveRead.trans restRead)

end Schema

namespace Expression

variable {schema : Schema}

/-- A child of a connective can be read back whole, in front of every fence. -/
def ReadsWrapped (schema : Schema) (child : Expression) : Prop :=
  ∀ behind : String, Fence behind.toList →
    (∀ place ∈ child.places (child.closing ++ behind), place.ReadsBack schema) →
      schema.ReadsWhole child.wrapped.toList behind.toList child.norm

/-- Children that can be read back one by one are read as their connective nested to the right. -/
theorem reads_among {connective : Logic} (known : connective ≠ .unknown)
    {children : List Expression} (nonempty : children ≠ [])
    (each : ∀ child ∈ children, child.ReadsWrapped schema) {behind : String}
    (fence : Fence behind.toList)
    (readable : ∀ place ∈ placesAmong connective children behind, place.ReadsBack schema) :
    schema.Reads (logic connective children).display.toList behind.toList
      (normAmong connective children) := by
  induction children with
  | nil => contradiction
  | cons child rest ih =>
      rcases List.forall_mem_cons.mp each with ⟨readsChild, readsRest⟩
      rw [placesAmong, List.forall_mem_append] at readable
      obtain ⟨childReadable, restReadable⟩ := readable
      cases rest with
      | nil =>
          rw [display_logic_singleton, normAmong, List.isEmpty_nil, if_pos rfl]
          exact (readsChild behind fence childReadable).reads
      | cons next others =>
          have following_eq : (following connective (next :: others) behind).toList =
              connective.joiner.toList ++ ((logic connective (next :: others)).display.toList ++
                behind.toList) := by
            simp [following]
          -- What stands behind the first child begins with the connective, which is a fence.
          have readsFirst := readsChild (following connective (next :: others) behind)
            (by rw [following_eq]; exact Logic.fence_joiner known _) childReadable
          rw [following_eq] at readsFirst
          rw [display_logic_cons_cons, String.toList_append, String.toList_append, normAmong,
            List.isEmpty_cons, if_neg Bool.false_ne_true]
          exact Schema.reads_join known readsFirst
            (ih (List.cons_ne_nil next others) readsRest restReadable)

/-- Every child of a connective can be read back whole. -/
theorem readsWrapped (avoids : schema.NamesAvoidOperands) {child : Expression}
    (wellTyped : child.WellTyped schema) : child.ReadsWrapped schema := by
  induction wellTyped with
  | condition holds =>
      obtain ⟨entry, _, typed⟩ := holds
      intro behind fence readable
      have reads := readable _ List.mem_cons_self
      rw [closing, String.empty_append] at reads
      exact Condition.readsWhole avoids typed reads fence
  | @logic connective children holds each ih =>
      obtain ⟨known, nonempty⟩ := holds
      intro behind fence readable
      have closing_eq : (closing (logic connective children) ++ behind).toList =
          ')' :: behind.toList := by
        simp [closing]
      have reads := reads_among known nonempty ih
        (by rw [closing_eq]; exact Fence.mark (Or.inl rfl)) readable
      rw [closing_eq] at reads
      have wrapped_eq : (wrapped (logic connective children)).toList =
          '(' :: ((logic connective children).display.toList ++ [')']) := by
        simp [wrapped]
      rw [wrapped_eq]
      exact Schema.readsWhole_group reads

/-- A well-typed expression whose conditions can be read back from their places is read back in
normal form. -/
theorem reads_display (avoids : schema.NamesAvoidOperands) {expression : Expression}
    (wellTyped : expression.WellTyped schema)
    (readable : ∀ place ∈ expression.places "", place.ReadsBack schema) :
    schema.Reads expression.display.toList [] expression.norm := by
  -- A connective at the top has no parentheses, so it is not read whole.
  cases wellTyped with
  | condition holds =>
      have whole := readsWrapped avoids (Throughout.condition holds)
      exact (whole "" Fence.nil readable).reads
  | logic holds each =>
      exact @reads_among schema _ holds.1 _ holds.2
        (fun child member => readsWrapped avoids (each child member)) "" Fence.nil readable

end Expression

namespace Source

variable {schema : Schema} {source : Source} {expression : Expression}

/-- An expression that was compiled from a query is written as a text query that compiles to the
expression in normal form, if each of its conditions can be read back from its place and no name
begins like an operand. -/
theorem compileText_display (avoids : schema.NamesAvoidOperands)
    (compiled : source.compile schema = .ok (some expression))
    (readable : ∀ place ∈ expression.places "", place.ReadsBack schema) :
    schema.compileText expression.display = .ok (some expression.norm) := by
  have reads := Expression.reads_display avoids (wellTyped_of_compile compiled).1 readable
  obtain ⟨sides, next, current, hasRead, read⟩ := reads _ _ Assembly.agrees_start
  obtain ⟨node, finished, meant⟩ := hasRead.means
  refine Schema.compileText_of_ofTokens ?_ meant
  rw [List.append_nil] at read
  rw [Schema.ofTokens_scan, Assembly.start, read, Schema.assemble_nil]
  exact Assembly.finish_eq_ok_some_iff.mpr ⟨node, sides, finished, List.append_nil _, rfl⟩

/-- A query with a list of one value, a text with quotes, a group and three alternatives. -/
def nestedTripQuery : Source :=
  .value (.array [.string "or", .array
    [.array [.string "title", .string "in", .array [.string "New"]],
      .array [.string "and", .array
        [.array [.string "start", .string "<", .string "2024-02-29"],
          .array [.string "title", .string "=", .string "say \"no\" now"]]],
      .array [.string "start", .string "blank", .string ""]]])

def draftTitle : Condition :=
  ⟨.single .string, "title", .compare .anyOf, .list [.text "draft"]⟩

def earlyStart : Condition :=
  ⟨.single .date, "start", .compare .lessThan, tripDay⟩

def saidTitle : Condition :=
  ⟨.single .string, "title", .compare .equal, .text "say \"no\" now"⟩

def missingStart : Condition :=
  ⟨.single .date, "start", .presence .blank, .emptyText⟩

def nestedTripExpression : Expression :=
  .logic .or [.condition draftTitle, .logic .and [.condition earlyStart, .condition saidTitle],
    .condition missingStart]

/-- The conditions of the expression, with what stands behind them. -/
def nestedTripPlaces : List Place :=
  [⟨draftTitle, " or (start less than 2024-02-29 and title equal 'say \"no\" now') or start blank"⟩,
    ⟨earlyStart, " and title equal 'say \"no\" now') or start blank"⟩,
    ⟨saidTitle, ") or start blank"⟩, ⟨missingStart, ""⟩]

theorem readsBack_nestedTrip : ∀ place ∈ nestedTripPlaces, place.ReadsBack tripSchema := by
  simp only [nestedTripPlaces, List.forall_mem_cons, List.not_mem_nil, false_implies, implies_true,
    and_true]
  refine ⟨⟨Bool.noConfusion, by decide, ⟨tripTitle, rfl, rfl, rfl, rfl, fun _ => ?_⟩, ?_⟩,
    ⟨Bool.noConfusion, by decide, ⟨tripStart, rfl, rfl, rfl, rfl, fun _ => ?_⟩, ?_⟩,
    ⟨Bool.noConfusion, by decide, ⟨tripTitle, rfl, rfl, rfl, rfl, fun _ => ?_⟩, ?_⟩,
    ⟨fun _ => rfl, by decide, ⟨tripStart, rfl, rfl, rfl, rfl, Bool.noConfusion⟩, ?_⟩⟩
  all_goals decide +kernel

theorem compileText_display_trip :
    tripSchema.NamesAvoidOperands ∧
      nestedTripQuery.compile tripSchema = .ok (some nestedTripExpression) ∧
      (∀ place ∈ nestedTripExpression.places "", place.ReadsBack tripSchema) ∧
      tripSchema.compileText nestedTripExpression.display =
        .ok (some nestedTripExpression.norm) := by
  have avoids : tripSchema.NamesAvoidOperands := by
    unfold Schema.NamesAvoidOperands
    decide
  have compiled : nestedTripQuery.compile tripSchema = .ok (some nestedTripExpression) := rfl
  have readable : ∀ place ∈ nestedTripExpression.places "", place.ReadsBack tripSchema := by
    have places_eq : nestedTripExpression.places "" = nestedTripPlaces := rfl
    rw [places_eq]
    exact readsBack_nestedTrip
  exact ⟨avoids, compiled, readable, compileText_display avoids compiled readable⟩

end Source

end FilterQuery
