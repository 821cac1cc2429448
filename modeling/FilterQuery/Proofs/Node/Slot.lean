import FilterQuery.Expression.Compile
import FilterQuery.Proofs.Token.Acceptance

/-!
# Tokens in their slots

Both grammars put tokens into the slots of a tree, and a slot holds either a token that belongs
there or an invalid one.  Compiling such a tree reads the slots in order and stops at the first
invalid token, so what it reports is decided by that slot alone.
-/

namespace FilterQuery

/-- The places for tokens in a tree. -/
inductive Slot
  | connective
  | field
  | operator
  | operand
  deriving DecidableEq

namespace Slot

/-- The error that an invalid token causes in a slot. -/
def fault : Slot → String → ParseError
  | connective => .unknownLogic
  | field => .unknownField
  | operator => .unknownOperator
  | operand => .invalidValue

/-- Whether a token belongs in a slot. -/
def Holds (schema : Schema) : Slot → Token → Prop
  | connective, token => token.kind.isLogic = true
  | field, token => ∃ field, token.Names schema field
  | operator, token => token.kind.isOperator = true
  | operand, token => token.kind.isValue = true

/-- Whether a token may stand in a slot: one that belongs there, or an invalid one. -/
def Fills (schema : Schema) (slot : Slot) (token : Token) : Prop :=
  token.isInvalid = true ∨ slot.Holds schema token

end Slot

/-- The first slot of a list that holds an invalid token. -/
def firstFault? (slots : List (Slot × Token)) : Option (Slot × Token) :=
  slots.find? (·.2.isInvalid)

theorem isInvalid_of_firstFault? {slots : List (Slot × Token)}
    (faultless : firstFault? slots = none) : ∀ place ∈ slots, place.2.isInvalid = false := by
  intro place member
  rw [Bool.eq_false_iff]
  exact List.find?_eq_none.mp faultless place member

theorem firstFault?_append (front back : List (Slot × Token)) :
    firstFault? (front ++ back) = (firstFault? front).or (firstFault? back) :=
  List.find?_append

/-- The operands of a leaf in their slots. -/
def Operand.slots (operand : Operand) : List (Slot × Token) :=
  operand.tokens.map fun token => (.operand, token)

namespace Node

mutual

/-- The slots of a tree in reading order, a connective before its children. -/
def slots : Node → List (Slot × Token)
  | leaf field operator operand => (.field, field) :: (.operator, operator) :: operand.slots
  | logic connective children => (.connective, connective) :: slotsAmong children

/-- The slots of a list of trees. -/
def slotsAmong : List Node → List (Slot × Token)
  | [] => []
  | child :: rest => child.slots ++ slotsAmong rest

end

theorem mem_slotsAmong_iff {nodes : List Node} {place : Slot × Token} :
    place ∈ slotsAmong nodes ↔ ∃ node ∈ nodes, place ∈ node.slots := by
  induction nodes with
  | nil => simp [slotsAmong]
  | cons node rest ih => simp [slotsAmong, ih]

/-- A tree is filled when every slot holds a token that may stand there. -/
def Filled (schema : Schema) (node : Node) : Prop :=
  ∀ place ∈ node.slots, place.1.Fills schema place.2

/-- A list of trees is filled when all of them are. -/
def FilledEach (schema : Schema) (nodes : List Node) : Prop :=
  ∀ place ∈ slotsAmong nodes, place.1.Fills schema place.2

theorem filledEach_cons {schema : Schema} {child : Node} {rest : List Node} :
    FilledEach schema (child :: rest) ↔ child.Filled schema ∧ FilledEach schema rest := by
  simp only [FilledEach, Filled, slotsAmong, List.mem_append]
  constructor
  · intro filled
    exact ⟨fun place member => filled place (Or.inl member),
      fun place member => filled place (Or.inr member)⟩
  · rintro ⟨childFilled, restFilled⟩ place (member | member)
    · exact childFilled place member
    · exact restFilled place member

theorem firstInvalid?_tokens (operand : Operand) :
    firstInvalid? operand.tokens = (firstFault? operand.slots).map (·.2) := by
  simp [firstInvalid?, firstFault?, Operand.slots, List.find?_map, Function.comp_def]

mutual

/-- The first invalid token of a tree is the one in its first faulty slot. -/
theorem invalid?_eq_firstFault? (node : Node) :
    node.invalid? = (firstFault? node.slots).map (·.2) := by
  cases node with
  | leaf field operator operand =>
      have operands := firstInvalid?_tokens operand
      simp only [invalid?, slots, firstInvalid?, firstFault?, List.find?_cons] at operands ⊢
      rw [operands]
      cases field.isInvalid <;> cases operator.isInvalid <;> rfl
  | logic connective children =>
      have among := invalidAmong?_eq_firstFault? children
      simp only [invalid?, slots, firstFault?, List.find?_cons] at among ⊢
      rw [among]
      cases connective.isInvalid <;> rfl

theorem invalidAmong?_eq_firstFault? (nodes : List Node) :
    invalidAmong? nodes = (firstFault? (slotsAmong nodes)).map (·.2) := by
  cases nodes with
  | nil => rfl
  | cons child rest =>
      rw [invalidAmong?, slotsAmong, firstFault?_append, invalid?_eq_firstFault? child,
        invalidAmong?_eq_firstFault? rest, Option.map_or]

end

end Node

/-- A result reports on slots when it is the error of the first faulty one, and none otherwise. -/
def ReportsOn {α : Type} (slots : List (Slot × Token)) (result : Except ParseError α) : Prop :=
  match firstFault? slots with
  | some (slot, token) => result = .error (slot.fault token.raw)
  | none => ∃ value, result = .ok value

namespace ReportsOn

variable {α β : Type} {slots more : List (Slot × Token)} {result : Except ParseError α}

theorem nil (value : α) : ReportsOn [] (.ok value) :=
  ⟨value, rfl⟩

/-- Computations in sequence report on their slots in sequence. -/
theorem bind {next : α → Except ParseError β} (first : ReportsOn slots result)
    (second : ∀ value, ReportsOn more (next value)) :
    ReportsOn (slots ++ more) (result >>= next) := by
  unfold ReportsOn at first ⊢
  rw [firstFault?_append]
  cases found : firstFault? slots with
  | some place =>
      rw [found] at first
      rw [first]
      rfl
  | none =>
      rw [found] at first
      rcases first with ⟨value, rfl⟩
      exact second value

theorem map (reports : ReportsOn slots result) (wrap : α → β) :
    ReportsOn slots (result.map wrap) := by
  unfold ReportsOn at reports ⊢
  split at reports
  · rw [reports]
    rfl
  · rcases reports with ⟨value, rfl⟩
    exact ⟨wrap value, rfl⟩

/-- What succeeds found no faulty slot. -/
theorem firstFault?_eq_none {value : α} (reports : ReportsOn slots (.ok value)) :
    firstFault? slots = none := by
  unfold ReportsOn at reports
  split at reports
  · contradiction
  · assumption

/-- A single slot is reported on by what is computed from its token. -/
theorem single {slot : Slot} {token : Token}
    (invalid : token.isInvalid = true → result = .error (slot.fault token.raw))
    (belongs : token.isInvalid = false → ∃ value, result = .ok value) :
    ReportsOn [(slot, token)] result := by
  cases isInvalid : token.isInvalid with
  | true => simpa [ReportsOn, firstFault?, isInvalid] using invalid isInvalid
  | false => simpa [ReportsOn, firstFault?, isInvalid] using belongs isInvalid

end ReportsOn

namespace Token

variable {schema : Schema} {token : Token}

theorem Names.toField_eq {field : Field} (names : token.Names schema field) :
    token.toField schema = .ok field := by
  rcases names with ⟨name, rfl, found⟩
  have named : schema.field? (ofText .field name).raw = some field := found
  rw [toField, named]
  rfl

theorem reportsOn_toField (fills : Slot.field.Fills schema token) :
    ReportsOn [(.field, token)] (token.toField schema) := by
  apply ReportsOn.single
  · intro isInvalid
    rw [toField, kind_eq_of_isInvalid isInvalid]
    rfl
  · intro valid
    rcases fills with isInvalid | ⟨field, names⟩
    · rw [valid] at isInvalid
      contradiction
    · exact ⟨field, names.toField_eq⟩

theorem toOperator_of_isOperator (isOperator : token.kind.isOperator = true) :
    token.toOperator = .ok token.kind.toOperator := by
  unfold toOperator
  cases shape : token.kind <;> simp_all [TokenKind.isOperator, TokenKind.isComparer,
    TokenKind.isPresence, TokenKind.toOperator]

theorem reportsOn_toOperator (fills : Slot.operator.Fills schema token) :
    ReportsOn [(.operator, token)] token.toOperator := by
  apply ReportsOn.single
  · intro isInvalid
    rw [toOperator, kind_eq_of_isInvalid isInvalid]
    rfl
  · intro valid
    rcases fills with isInvalid | isOperator
    · rw [valid] at isInvalid
      contradiction
    · exact ⟨_, toOperator_of_isOperator isOperator⟩

theorem toLogic_of_isLogic (isLogic : token.kind.isLogic = true) :
    token.toLogic = .ok token.kind.toLogic := by
  unfold toLogic
  cases shape : token.kind <;> simp_all [TokenKind.isLogic, TokenKind.toLogic]

theorem reportsOn_toLogic (fills : Slot.connective.Fills schema token) :
    ReportsOn [(.connective, token)] token.toLogic := by
  apply ReportsOn.single
  · intro isInvalid
    rw [toLogic, kind_eq_of_isInvalid isInvalid]
    rfl
  · intro valid
    rcases fills with isInvalid | isLogic
    · rw [valid] at isInvalid
      contradiction
    · exact ⟨_, toLogic_of_isLogic isLogic⟩

theorem toValue_of_isValue (isValue : token.kind.isValue = true) :
    token.toValue = .ok token.value := by
  rw [toValue, if_pos isValue]

theorem reportsOn_toValue (fills : Slot.operand.Fills schema token) :
    ReportsOn [(.operand, token)] token.toValue := by
  apply ReportsOn.single
  · intro isInvalid
    rw [toValue, kind_eq_of_isInvalid isInvalid]
    rfl
  · intro valid
    rcases fills with isInvalid | isValue
    · rw [valid] at isInvalid
      contradiction
    · exact ⟨_, toValue_of_isValue isValue⟩

end Token

/-- The values of a list of operands report on their slots. -/
theorem reportsOn_mapM_toValue {schema : Schema} {tokens : List Token}
    (filled : ∀ token ∈ tokens, Slot.operand.Fills schema token) :
    ReportsOn (tokens.map fun token => (Slot.operand, token)) (tokens.mapM Token.toValue) := by
  induction tokens with
  | nil => exact ReportsOn.nil []
  | cons token rest ih =>
      rw [List.mapM_cons]
      apply ReportsOn.bind (Token.reportsOn_toValue (filled token List.mem_cons_self))
      intro value
      have restFilled := ih fun other member => filled other (List.mem_cons_of_mem token member)
      exact restFilled.map (value :: ·)

theorem Operand.reportsOn_toValue {schema : Schema} {operand : Operand}
    (filled : ∀ token ∈ operand.tokens, Slot.operand.Fills schema token) :
    ReportsOn operand.slots operand.toValue := by
  cases operand with
  | single token => exact Token.reportsOn_toValue (filled token List.mem_cons_self)
  | list tokens => exact (reportsOn_mapM_toValue filled).map Value.list

theorem Condition.reportsOn_ofLeaf {schema : Schema} {field operator : Token} {operand : Operand}
    (filled : (Node.leaf field operator operand).Filled schema) :
    ReportsOn (Node.leaf field operator operand).slots (ofLeaf schema field operator operand) := by
  have fieldFills := filled (.field, field) List.mem_cons_self
  have operatorFills := filled (.operator, operator) (List.mem_cons_of_mem _ List.mem_cons_self)
  have operandsFill (token : Token) (member : token ∈ operand.tokens) :
      Slot.operand.Fills schema token := by
    apply filled (.operand, token)
    simp only [Node.slots, Operand.slots]
    exact List.mem_cons_of_mem _ (List.mem_cons_of_mem _ (List.mem_map_of_mem member))
  apply (Token.reportsOn_toField fieldFills).bind
  intro field
  apply (Token.reportsOn_toOperator operatorFills).bind
  intro operator
  exact (Operand.reportsOn_toValue operandsFill).map
    (Condition.mk field.type field.name operator)

namespace Expression

mutual

/-- Compiling a filled tree reports on its slots. -/
theorem reportsOn_ofNode {schema : Schema} {node : Node} (filled : node.Filled schema) :
    ReportsOn node.slots (ofNode schema node) := by
  cases node with
  | leaf field operator operand => exact (Condition.reportsOn_ofLeaf filled).map condition
  | logic connective children =>
      have connectiveFills := filled (.connective, connective) List.mem_cons_self
      have childrenFilled : Node.FilledEach schema children := fun place member =>
        filled place (List.mem_cons_of_mem _ member)
      apply (Token.reportsOn_toLogic connectiveFills).bind
      intro connective
      exact (reportsOn_ofNodes childrenFilled).map (logic connective)

theorem reportsOn_ofNodes {schema : Schema} {nodes : List Node}
    (filled : Node.FilledEach schema nodes) :
    ReportsOn (Node.slotsAmong nodes) (ofNodes schema nodes) := by
  cases nodes with
  | nil => exact ReportsOn.nil []
  | cons child rest =>
      rcases Node.filledEach_cons.mp filled with ⟨childFilled, restFilled⟩
      apply (reportsOn_ofNode childFilled).bind
      intro child
      exact (reportsOn_ofNodes restFilled).map (child :: ·)

end

end Expression

end FilterQuery
