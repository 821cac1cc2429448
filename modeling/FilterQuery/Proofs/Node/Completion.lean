import FilterQuery.Proofs.Node.Steps

/-!
# Completing a query

Whatever an assembly has come to, some more tokens make a whole query of it: the condition at hand
lacks at most a field, an operator or a value, and then the open groups have to be closed.  So all
tokens that can be assembled are the beginning of a query.
-/

namespace FilterQuery

/-- The token that closes a group. -/
def Token.close : Token :=
  ofText .closeGroup ")"

/-- What a condition that is being built up still lacks. -/
def Partial.missing : Partial → List Token
  | .empty => [.ofText .field "", .ofText (.presence .blank) ""]
  | .field _ => [.ofText (.presence .blank) ""]
  | .operator _ _ | .separated _ _ _ => [.ofText (.value .string) ""]
  | .leaf _ _ _ | .node _ => []

namespace Assembly

/-- With what it lacked a condition is complete. -/
theorem foldlM_missing (assembly : Assembly) :
    ∃ current node,
      assembly.current.missing.foldlM step assembly = .ok ⟨assembly.pending, current⟩ ∧
        current.finish = .ok (some node) := by
  rcases assembly with ⟨pending, current⟩
  cases current with
  | empty | field _ | operator _ _ | separated _ _ _ | leaf _ _ _ | node _ =>
      exact ⟨_, _, rfl, rfl⟩

/-- Left sides stand in front of the innermost open group, or in front of nothing. -/
theorem putAside_cases (pending : List Pending) :
    (openGroups pending = 0 ∧ ∃ sides, pending = putAside sides) ∨
      ∃ sides rest, pending = putAside sides ++ .group :: rest ∧
        openGroups pending = openGroups rest + 1 := by
  induction pending with
  | nil => exact Or.inl ⟨rfl, [], rfl⟩
  | cons entry pending ih =>
      cases entry with
      | group => exact Or.inr ⟨[], pending, rfl, openGroups_group pending⟩
      | joined left connective =>
          rw [openGroups_joined]
          rcases ih with ⟨balanced, sides, rfl⟩ | ⟨sides, rest, rfl, opened⟩
          · exact Or.inl ⟨balanced, (left, connective) :: sides, rfl⟩
          · exact Or.inr ⟨(left, connective) :: sides, rest, rfl, opened⟩

/-- Behind a complete condition the open groups can be closed one after another. -/
theorem foldlM_close {current : Partial} {node : Node}
    (finished : current.finish = .ok (some node)) {pending : List Pending} {count : Nat}
    (opened : openGroups pending = count) :
    ∃ final root, (List.replicate count Token.close).foldlM step ⟨pending, current⟩ = .ok final ∧
      final.finish = .ok (some root) := by
  induction count generalizing pending current node with
  | zero =>
      rcases putAside_cases pending with ⟨_, sides, rfl⟩ | ⟨_, rest, _, more⟩
      · exact ⟨_, _, rfl, finish_eq_ok_some_iff.mpr ⟨node, sides, finished, rfl, rfl⟩⟩
      · omega
  | succ count ih =>
      rcases putAside_cases pending with ⟨balanced, _⟩ | ⟨sides, rest, rfl, more⟩
      · omega
      · have steps : Steps ⟨putAside sides ++ .group :: rest, current⟩ Token.close
            ⟨rest, .node (node.joinBehind sides)⟩ := Steps.closeGroup rfl finished rfl
        have inner : (Partial.node (node.joinBehind sides)).finish =
            .ok (some (node.joinBehind sides)) := rfl
        have fewer : openGroups rest = count := by omega
        rcases ih inner fewer with ⟨final, root, closed, ended⟩
        refine ⟨final, root, ?_, ended⟩
        rw [List.replicate_succ, List.foldlM_cons, step_eq_ok_iff.mpr steps]
        exact closed

end Assembly

/-- Tokens that can be assembled are the beginning of a query. -/
theorem Node.exists_ofTokens_append {tokens : List Token} {assembly : Assembly}
    (assembled : tokens.foldlM Assembly.step Assembly.start = .ok assembly) :
    ∃ rest root, ofTokens (tokens ++ rest) = .ok (some root) := by
  rcases assembly.foldlM_missing with ⟨current, node, completed, finished⟩
  obtain ⟨count, opened⟩ : ∃ count, Assembly.openGroups assembly.pending = count := ⟨_, rfl⟩
  rcases Assembly.foldlM_close finished opened with ⟨final, root, closed, ended⟩
  refine ⟨assembly.current.missing ++ List.replicate count Token.close, root, ?_⟩
  rw [ofTokens, List.foldlM_append, assembled]
  change (List.foldlM Assembly.step assembly _).bind Assembly.finish = _
  rw [List.foldlM_append, completed]
  change (List.foldlM Assembly.step _ _).bind Assembly.finish = _
  rw [closed]
  exact ended

end FilterQuery
