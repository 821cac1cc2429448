import FilterQuery.Proofs.Node.Steps
import FilterQuery.Proofs.Outcome

/-!
# The grammar of token lists

Assembling is a walk over a stack, but what it accepts is a grammar: a leaf is a field with an
operator and its values, a term is a leaf or a group, and a chain of terms nests to the right.  What
has been put aside is the writing of everything in front of the condition at hand, so a list of
tokens is assembled to a tree exactly when it is a writing of the tree.
-/

namespace FilterQuery

/-- The tokens of a list that are not spaces. -/
def visibleTokens (tokens : List Token) : List Token :=
  tokens.filter (·.kind != .space)

/-- An operand with further values, if there are any. -/
def Operand.extend (operand : Operand) : List Token → Operand
  | [] => operand
  | values => .list (operand.tokens ++ values)

theorem Operand.tokens_extend (operand : Operand) (values : List Token) :
    (operand.extend values).tokens = operand.tokens ++ values := by
  cases values with
  | nil => exact (List.append_nil operand.tokens).symm
  | cons first rest => rfl

theorem Operand.extend_cons (operand : Operand) (value : Token) (values : List Token) :
    (operand.extend [value]).extend values = operand.extend (value :: values) := by
  cases values with
  | nil => rfl
  | cons second rest => simp [extend, tokens]

theorem Operand.extend_append_singleton (operand : Operand) (values : List Token) (value : Token) :
    operand.extend (values ++ [value]) = .list ((operand.extend values).tokens ++ [value]) := by
  rw [tokens_extend, List.append_assoc]
  cases values with
  | nil => rfl
  | cons first rest => rfl

/-- The further values of a leaf as they are written, each behind a separator. -/
inductive SeparatedValues : List Token → List Token → Prop
  | nil : SeparatedValues [] []
  | cons {separator value : Token} {tokens values : List Token}
      (isSeparator : separator.kind.isSeparator = true) (isValue : value.kind.isValue = true)
      (others : SeparatedValues tokens values) :
      SeparatedValues (separator :: value :: tokens) (value :: values)

/-- The ways in which a tree may be written. -/
inductive Writing
  /-- A leaf or a group. -/
  | term
  /-- Terms with connectives between them. -/
  | chain

namespace Node

/-- A leaf is written as a field, an operator and the values that it takes.  An operator without an
operand stands for the missing one. -/
inductive WrittenAsLeaf : Node → List Token → Prop
  | compare {subject relation value : Token} {tokens values : List Token}
      (isField : subject.kind.isField = true) (isComparer : relation.kind.isComparer = true)
      (isValue : value.kind.isValue = true) (others : SeparatedValues tokens values) :
      WrittenAsLeaf (.leaf subject relation ((Operand.single value).extend values))
        (subject :: relation :: value :: tokens)
  | presence {subject relation : Token} {tokens values : List Token}
      (isField : subject.kind.isField = true) (isPresence : relation.kind.isPresence = true)
      (others : SeparatedValues tokens values) :
      WrittenAsLeaf (.leaf subject relation ((Operand.single Token.noOperand).extend values))
        (subject :: relation :: tokens)

/-- The grammar of token lists without spaces. -/
inductive WrittenAs : Writing → Node → List Token → Prop
  | leaf {node : Node} {tokens : List Token} (written : node.WrittenAsLeaf tokens) :
      WrittenAs .term node tokens
  | group {opening closing : Token} {node : Node} {tokens : List Token}
      (opens : opening.kind = .openGroup) (closes : closing.kind = .closeGroup)
      (inner : WrittenAs .chain node tokens) :
      WrittenAs .term node (opening :: (tokens ++ [closing]))
  | single {node : Node} {tokens : List Token} (written : WrittenAs .term node tokens) :
      WrittenAs .chain node tokens
  | join {left right : Node} {connective : Token} {front back : List Token}
      (isLogic : connective.kind.isLogic = true) (leftWritten : WrittenAs .term left front)
      (rightWritten : WrittenAs .chain right back) :
      WrittenAs .chain (left.join connective right) (front ++ connective :: back)

end Node

/-! ## Every writing is assembled -/

theorem visibleTokens_cons (token : Token) (tokens : List Token) :
    visibleTokens (token :: tokens) =
      if token.kind = .space then visibleTokens tokens else token :: visibleTokens tokens := by
  by_cases isSpace : token.kind = .space <;> simp [visibleTokens, isSpace]

namespace Assembly

variable {pending : List Pending} {assembly next : Assembly} {token : Token}

theorem foldlM_extend {current next : Partial} (extended : extend? current token = some next)
    (tokens : List Token) :
    (token :: tokens).foldlM step ⟨pending, current⟩ = tokens.foldlM step ⟨pending, next⟩ := by
  have taken : step ⟨pending, current⟩ token = .ok ⟨pending, next⟩ := step_of_extend? extended
  rw [List.foldlM_cons, taken]
  rfl

theorem foldlM_of_steps (steps : Steps assembly token next) (tokens : List Token) :
    (token :: tokens).foldlM step assembly = tokens.foldlM step next := by
  rw [List.foldlM_cons, step_eq_ok_iff.mpr steps]
  rfl

theorem foldlM_append_of_eq_ok {front : List Token} (read : front.foldlM step assembly = .ok next)
    (back : List Token) : (front ++ back).foldlM step assembly = back.foldlM step next := by
  rw [List.foldlM_append, read]
  rfl

/-- Spaces are passed over. -/
theorem foldlM_visibleTokens (assembly : Assembly) (tokens : List Token) :
    (visibleTokens tokens).foldlM step assembly = tokens.foldlM step assembly := by
  induction tokens generalizing assembly with
  | nil => rfl
  | cons token tokens ih =>
      by_cases isSpace : token.kind = .space
      · rw [visibleTokens_cons, if_pos isSpace, foldlM_of_steps (Steps.space isSpace), ih]
      · rw [visibleTokens_cons, if_neg isSpace, List.foldlM_cons, List.foldlM_cons]
        exact congrArg (assembly.step token >>= ·) (funext ih)

/-- Further values extend the operand of a leaf. -/
theorem foldlM_separatedValues (subject relation : Token) (operand : Operand)
    {tokens values : List Token} (written : SeparatedValues tokens values) :
    tokens.foldlM step ⟨pending, .leaf subject relation operand⟩ =
      .ok ⟨pending, .leaf subject relation (operand.extend values)⟩ := by
  induction written generalizing operand with
  | nil => rfl
  | @cons separator value tokens values isSeparator isValue others ih =>
      have separated : extend? (.leaf subject relation operand) separator =
          some (.separated subject relation operand.tokens) := by
        rw [extend?, if_pos isSeparator]
      have listed : extend? (.separated subject relation operand.tokens) value =
          some (.leaf subject relation (operand.extend [value])) := by
        rw [extend?, if_pos isValue]
        rfl
      rw [foldlM_extend separated, foldlM_extend listed, ih, Operand.extend_cons]

end Assembly

namespace Node

open Assembly

theorem WrittenAsLeaf.foldlM_step {node : Node} {tokens : List Token}
    (written : node.WrittenAsLeaf tokens) (pending : List Pending) :
    ∃ current, tokens.foldlM step ⟨pending, .empty⟩ = .ok ⟨pending, current⟩ ∧
      current.finish = .ok (some node) := by
  cases written with
  | @compare subject relation value tokens values isField isComparer isValue others =>
      have field : extend? .empty subject = some (.field subject) := by
        rw [extend?, if_pos isField]
      have operator : extend? (.field subject) relation = some (.operator subject relation) := by
        rw [extend?, if_pos isComparer]
      have operand : extend? (.operator subject relation) value =
          some (.leaf subject relation (.single value)) := by
        rw [extend?, if_pos isValue]
      refine ⟨.leaf subject relation ((Operand.single value).extend values), ?_, rfl⟩
      rw [foldlM_extend field, foldlM_extend operator, foldlM_extend operand,
        foldlM_separatedValues subject relation (.single value) others]
  | @presence subject relation tokens values isField isPresence others =>
      have field : extend? .empty subject = some (.field subject) := by
        rw [extend?, if_pos isField]
      have operator : extend? (.field subject) relation =
          some (.leaf subject relation (.single Token.noOperand)) := by
        rw [extend?, if_neg (by simp [TokenKind.isComparer_eq_false isPresence]),
          if_pos isPresence]
      refine ⟨.leaf subject relation ((Operand.single Token.noOperand).extend values), ?_, rfl⟩
      rw [foldlM_extend field, foldlM_extend operator,
        foldlM_separatedValues subject relation (.single Token.noOperand) others]

/-- A writing leads from any place where a condition may begin to its last term, with the terms
before it put aside.  A single term leaves nothing aside. -/
theorem WrittenAs.foldlM_step {form : Writing} {node : Node} {tokens : List Token}
    (written : node.WrittenAs form tokens) (pending : List Pending) :
    ∃ sides current last,
      tokens.foldlM step ⟨pending, .empty⟩ = .ok ⟨putAside sides ++ pending, current⟩ ∧
        current.finish = .ok (some last) ∧ node = last.joinBehind sides ∧
        (form = .term → sides = []) := by
  induction written generalizing pending with
  | @leaf node tokens written =>
      obtain ⟨current, read, finished⟩ := written.foldlM_step pending
      exact ⟨[], current, node, read, finished, rfl, fun _ => rfl⟩
  | @group opening closing node tokens opens closes inner ih =>
      obtain ⟨sides, current, last, read, finished, rfl, _⟩ := ih (.group :: pending)
      refine ⟨[], .node (last.joinBehind sides), _, ?_, rfl, rfl, fun _ => rfl⟩
      rw [foldlM_of_steps (Steps.openGroup opens rfl), foldlM_append_of_eq_ok read,
        foldlM_of_steps (Steps.closeGroup closes finished rfl)]
      rfl
  | single written ih =>
      obtain ⟨sides, current, last, read, finished, shape, _⟩ := ih pending
      exact ⟨sides, current, last, read, finished, shape, Writing.noConfusion⟩
  | @join left right connective front back isLogic leftWritten rightWritten leftRead rightRead =>
      obtain ⟨_, current, last, read, finished, rfl, alone⟩ := leftRead pending
      cases alone rfl
      obtain ⟨sides, next, final, readRight, finishedRight, rfl, _⟩ :=
        rightRead (.joined last connective :: pending)
      refine ⟨sides ++ [(last, connective)], next, final, ?_, finishedRight, ?_,
        Writing.noConfusion⟩
      · rw [foldlM_append_of_eq_ok read, foldlM_of_steps (Steps.join isLogic finished)]
        simpa [putAside] using readRight
      · rw [joinBehind_append]
        rfl

end Node

/-! ## Whatever is assembled is a writing -/

theorem SeparatedValues.append {tokens values : List Token}
    (written : SeparatedValues tokens values) {separator value : Token}
    (isSeparator : separator.kind.isSeparator = true) (isValue : value.kind.isValue = true) :
    SeparatedValues (tokens ++ [separator, value]) (values ++ [value]) := by
  induction written with
  | nil => exact .cons isSeparator isValue .nil
  | cons first firstValue _ ih => exact .cons first firstValue ih

/-- The tokens of a condition that is being built up. -/
inductive Partial.WrittenAs : Partial → List Token → Prop
  | empty : WrittenAs .empty []
  | field {subject : Token} (isField : subject.kind.isField = true) :
      WrittenAs (.field subject) [subject]
  | operator {subject relation : Token} (isField : subject.kind.isField = true)
      (isComparer : relation.kind.isComparer = true) :
      WrittenAs (.operator subject relation) [subject, relation]
  | leaf {subject relation : Token} {operand : Operand} {tokens : List Token}
      (written : (Node.leaf subject relation operand).WrittenAsLeaf tokens) :
      WrittenAs (.leaf subject relation operand) tokens
  | separated {subject relation separator : Token} {operand : Operand} {tokens : List Token}
      (written : (Node.leaf subject relation operand).WrittenAsLeaf tokens)
      (isSeparator : separator.kind.isSeparator = true) :
      WrittenAs (.separated subject relation operand.tokens) (tokens ++ [separator])
  | node {tree : Node} {tokens : List Token} (written : tree.WrittenAs .term tokens) :
      WrittenAs (.node tree) tokens

/-- The tokens of what has been put aside, the latest of it written last. -/
inductive Pending.WrittenAs : List Pending → List Token → Prop
  | nil : WrittenAs [] []
  | joined {pending : List Pending} {left : Node} {connective : Token} {before tokens : List Token}
      (earlier : WrittenAs pending before) (written : left.WrittenAs .term tokens)
      (isLogic : connective.kind.isLogic = true) :
      WrittenAs (.joined left connective :: pending) (before ++ (tokens ++ [connective]))
  | group {pending : List Pending} {opening : Token} {before : List Token}
      (earlier : WrittenAs pending before) (opens : opening.kind = .openGroup) :
      WrittenAs (.group :: pending) (before ++ [opening])

/-- An assembly is written as what has been put aside and the condition at hand behind it. -/
def Assembly.WrittenAs (assembly : Assembly) (tokens : List Token) : Prop :=
  ∃ before behind, tokens = before ++ behind ∧ Pending.WrittenAs assembly.pending before ∧
    assembly.current.WrittenAs behind

/-- Another value of a leaf is written behind a separator. -/
theorem Node.WrittenAsLeaf.append {subject relation : Token} {operand : Operand}
    {tokens : List Token} (written : (Node.leaf subject relation operand).WrittenAsLeaf tokens)
    {separator value : Token} (isSeparator : separator.kind.isSeparator = true)
    (isValue : value.kind.isValue = true) :
    (Node.leaf subject relation (.list (operand.tokens ++ [value]))).WrittenAsLeaf
      (tokens ++ [separator, value]) := by
  cases written with
  | @compare _ _ first tokens values isField isComparer firstValue others =>
      have longer := WrittenAsLeaf.compare isField isComparer firstValue
        (others.append isSeparator isValue)
      rw [Operand.extend_append_singleton] at longer
      exact longer
  | @presence _ _ tokens values isField isPresence others =>
      have longer := WrittenAsLeaf.presence isField isPresence
        (others.append isSeparator isValue)
      rw [Operand.extend_append_singleton] at longer
      exact longer

namespace Partial.WrittenAs

variable {current next : Partial} {tokens : List Token} {token : Token}

/-- A condition that is complete is written as a term. -/
theorem finish (written : current.WrittenAs tokens) {node : Node}
    (finished : current.finish = .ok (some node)) : node.WrittenAs .term tokens := by
  cases written with
  | leaf written =>
      cases finished
      exact .leaf written
  | node written =>
      cases finished
      exact written
  | empty | field _ | operator _ _ | separated _ _ => cases finished

/-- A token that extends a condition is written behind it. -/
theorem extend (written : current.WrittenAs tokens)
    (extended : Assembly.extend? current token = some next) :
    next.WrittenAs (tokens ++ [token]) := by
  cases written with
  | empty =>
      rw [Assembly.extend?, Option.ite_none_right_eq_some] at extended
      obtain ⟨isField, same⟩ := extended
      cases same
      exact .field isField
  | field isField =>
      rw [Assembly.extend?] at extended
      split at extended
      · next isComparer =>
          cases extended
          exact .operator isField isComparer
      · split at extended
        · next isPresence =>
            cases extended
            exact .leaf (.presence isField isPresence .nil)
        · contradiction
  | operator isField isComparer =>
      rw [Assembly.extend?, Option.ite_none_right_eq_some] at extended
      obtain ⟨isValue, same⟩ := extended
      cases same
      exact .leaf (.compare isField isComparer isValue .nil)
  | leaf written =>
      rw [Assembly.extend?, Option.ite_none_right_eq_some] at extended
      obtain ⟨isSeparator, same⟩ := extended
      cases same
      exact .separated written isSeparator
  | separated written isSeparator =>
      rw [Assembly.extend?, Option.ite_none_right_eq_some] at extended
      obtain ⟨isValue, same⟩ := extended
      cases same
      rw [List.append_assoc]
      exact .leaf (written.append isSeparator isValue)
  | node written => simp [Assembly.extend?] at extended

end Partial.WrittenAs

/-- A term behind left sides is written as a chain with them. -/
theorem Pending.WrittenAs.joinBehind {pending : List Pending} {sides : List (Node × Token)}
    {before behind : List Token}
    (written : Pending.WrittenAs (Assembly.putAside sides ++ pending) before) {node : Node}
    (chain : node.WrittenAs .chain behind) :
    ∃ earlier whole, before ++ behind = earlier ++ whole ∧ Pending.WrittenAs pending earlier ∧
      (node.joinBehind sides).WrittenAs .chain whole := by
  induction sides generalizing node before behind with
  | nil => exact ⟨before, behind, rfl, written, chain⟩
  | cons side sides ih =>
      cases written with
      | @joined _ _ _ before tokens earlier term isLogic =>
          obtain ⟨front, whole, same, frontWritten, wholeWritten⟩ :=
            ih earlier (.join isLogic term chain)
          refine ⟨front, whole, ?_, frontWritten, wholeWritten⟩
          rw [← same]
          simp

namespace Assembly

variable {assembly next : Assembly} {token : Token} {tokens : List Token}

theorem writtenAs_start : start.WrittenAs [] :=
  ⟨[], [], rfl, .nil, .empty⟩

/-- A token that is no space is written behind those before it. -/
theorem WrittenAs.step (written : assembly.WrittenAs tokens) (steps : Steps assembly token next)
    (visible : token.kind ≠ .space) : next.WrittenAs (tokens ++ [token]) := by
  obtain ⟨before, behind, rfl, beforeWritten, behindWritten⟩ := written
  rw [List.append_assoc]
  cases steps with
  | space isSpace => exact absurd isSpace visible
  | extend extended => exact ⟨_, _, rfl, beforeWritten, behindWritten.extend extended⟩
  | join isLogic finished =>
      refine ⟨_, [], (List.append_nil _).symm, ?_, .empty⟩
      exact .joined beforeWritten (behindWritten.finish finished) isLogic
  | openGroup opens isEmpty =>
      rw [isEmpty] at behindWritten
      cases behindWritten
      exact ⟨_, [], (List.append_nil _).symm, .group beforeWritten opens, .empty⟩
  | closeGroup closes finished pending_eq =>
      rw [pending_eq] at beforeWritten
      obtain ⟨earlier, whole, same, earlierWritten, chain⟩ :=
        beforeWritten.joinBehind (.single (behindWritten.finish finished))
      cases earlierWritten with
      | @group _ opening before earlier opens =>
          refine ⟨before, opening :: (whole ++ [token]), ?_, earlier,
            .node (.group opens closes chain)⟩
          rw [← List.append_assoc, same]
          simp

/-- Whatever is read is written behind what was read before, but for its spaces. -/
theorem WrittenAs.foldlM (written : assembly.WrittenAs tokens) {behind : List Token}
    (read : behind.foldlM Assembly.step assembly = .ok next) :
    next.WrittenAs (tokens ++ visibleTokens behind) := by
  induction behind generalizing assembly tokens with
  | nil =>
      cases read
      rw [visibleTokens, List.filter_nil, List.append_nil]
      exact written
  | cons token behind ih =>
      obtain ⟨middle, stepped, readRest⟩ := bind_eq_ok_iff.mp read
      by_cases isSpace : token.kind = .space
      · rw [step_eq_ok_iff.mpr (Steps.space isSpace)] at stepped
        cases stepped
        rw [visibleTokens_cons, if_pos isSpace]
        exact ih written readRest
      · rw [visibleTokens_cons, if_neg isSpace, List.append_cons]
        exact ih (written.step (steps_of_step stepped) isSpace) readRest

end Assembly

namespace Node

open Assembly

/-- A writing is assembled to the tree that it is a writing of. -/
theorem WrittenAs.ofTokens_eq {tokens : List Token} {node : Node}
    (written : node.WrittenAs .chain tokens) : ofTokens tokens = .ok (some node) := by
  obtain ⟨sides, current, last, read, finished, rfl, _⟩ := written.foldlM_step []
  rw [ofTokens, start, read]
  exact finish_eq_ok_some_iff.mpr ⟨last, sides, finished, List.append_nil _, rfl⟩

/-- No list of tokens is a writing of two trees. -/
theorem WrittenAs.unique {tokens : List Token} {node other : Node}
    (written : node.WrittenAs .chain tokens) (otherWritten : other.WrittenAs .chain tokens) :
    node = other := by
  have same := written.ofTokens_eq.symm.trans otherWritten.ofTokens_eq
  cases same
  rfl

/-- Tokens are assembled to a tree exactly when they are a writing of it, spaces aside. -/
theorem ofTokens_eq_ok_some_iff {tokens : List Token} {node : Node} :
    ofTokens tokens = .ok (some node) ↔ node.WrittenAs .chain (visibleTokens tokens) := by
  constructor
  · intro built
    obtain ⟨assembly, read, ended⟩ := bind_eq_ok_iff.mp built
    obtain ⟨before, behind, same, beforeWritten, behindWritten⟩ := writtenAs_start.foldlM read
    rw [List.nil_append] at same
    rcases finish_eq_ok_some_iff.mp ended with ⟨last, sides, finished, pending_eq, rfl⟩
    rw [pending_eq, ← List.append_nil (putAside sides)] at beforeWritten
    obtain ⟨earlier, whole, parts, earlierWritten, chain⟩ :=
      beforeWritten.joinBehind (.single (behindWritten.finish finished))
    cases earlierWritten
    rw [same, parts]
    exact chain
  · intro written
    rw [ofTokens, ← foldlM_visibleTokens]
    exact written.ofTokens_eq

/-- Nothing is assembled exactly when there are only spaces. -/
theorem ofTokens_eq_ok_none_iff {tokens : List Token} :
    ofTokens tokens = .ok none ↔ ∀ token ∈ tokens, token.kind = .space := by
  have visible : visibleTokens tokens = [] ↔ ∀ token ∈ tokens, token.kind = .space := by
    simp [visibleTokens]
  rw [← visible]
  constructor
  · intro built
    obtain ⟨assembly, read, ended⟩ := bind_eq_ok_iff.mp built
    obtain ⟨before, behind, same, beforeWritten, behindWritten⟩ := writtenAs_start.foldlM read
    rw [List.nil_append] at same
    rcases finish_eq_ok_none_iff.mp ended with ⟨isEmpty, nothing⟩
    rw [nothing] at beforeWritten
    rw [isEmpty] at behindWritten
    cases beforeWritten
    cases behindWritten
    exact same
  · intro nothing
    rw [ofTokens, ← foldlM_visibleTokens, nothing]
    rfl

/-- Assembling accepts exactly the grammar: nothing but spaces is the empty query, a writing of a
tree is assembled to the tree, and every other list is an error. -/
theorem ofTokens_accepts_grammar (tokens : List Token) :
    (ofTokens tokens = .ok none ↔ ∀ token ∈ tokens, token.kind = .space) ∧
      (∀ node, ofTokens tokens = .ok (some node) ↔
        node.WrittenAs .chain (visibleTokens tokens)) ∧
      ((∃ error, ofTokens tokens = .error error) ↔
        (∃ token ∈ tokens, token.kind ≠ .space) ∧
          ∀ node : Node, ¬ node.WrittenAs .chain (visibleTokens tokens)) := by
  have none_iff : ofTokens tokens = .ok none ↔ _ := ofTokens_eq_ok_none_iff
  have some_iff (node : Node) : ofTokens tokens = .ok (some node) ↔ _ := ofTokens_eq_ok_some_iff
  refine ⟨none_iff, some_iff, ?_⟩
  have visible : (∃ token ∈ tokens, token.kind ≠ .space) ↔
      ¬ ∀ token ∈ tokens, token.kind = .space := by
    simp only [ne_eq, not_forall, exists_prop]
  simp only [visible, ← none_iff, ← some_iff]
  rcases ofTokens tokens with error | (_ | node) <;> simp

end Node

end FilterQuery
