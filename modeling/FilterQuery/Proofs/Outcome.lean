/-!
# Outcomes of steps that may fail

Steps one after another succeed exactly when each of them does.
-/

namespace FilterQuery

variable {ε α β : Type}

theorem bind_eq_ok_iff {first : Except ε α} {next : α → Except ε β} {result : β} :
    first.bind next = .ok result ↔ ∃ middle, first = .ok middle ∧ next middle = .ok result := by
  cases first <;> simp [Except.bind]

theorem map_eq_ok_iff {outcome : Except ε α} {f : α → β} {result : β} :
    outcome.map f = .ok result ↔ ∃ value, outcome = .ok value ∧ f value = result := by
  cases outcome <;> simp [Except.map]

theorem mapError_eq_ok_iff {δ : Type} {outcome : Except ε α} {f : ε → δ} {result : α} :
    outcome.mapError f = .ok result ↔ outcome = .ok result := by
  cases outcome with
  | error cause => exact ⟨nofun, nofun⟩
  | ok value =>
    constructor
    · rintro ⟨⟩
      rfl
    · rintro ⟨⟩
      rfl

variable {μ ν : Type} {first second : Except ε α} {measure : α → μ} {further : β → ν}

/-- Outcomes of one measure still have one measure behind a further step that respects it. -/
theorem map_bind_congr {f g : α → Except ε β} (same : first.map measure = second.map measure)
    (respects : ∀ a b, measure a = measure b → (f a).map further = (g b).map further) :
    (first.bind f).map further = (second.bind g).map further := by
  cases first <;> cases second <;> simp only [Except.map, reduceCtorEq, Except.error.injEq,
    Except.ok.injEq] at same
  · exact congrArg Except.error same
  · exact respects _ _ same

theorem map_map_congr {f g : α → β} (same : first.map measure = second.map measure)
    (respects : ∀ a b, measure a = measure b → further (f a) = further (g b)) :
    (first.map f).map further = (second.map g).map further :=
  map_bind_congr same fun a b same => congrArg Except.ok (respects a b same)

end FilterQuery
