import FilterQuery.Node.Basic
import FilterQuery.Query.Error

/-!
# Assembling the tokens of a text query

Tokens are assembled into a tree one by one.  A condition is built up in steps; a connective puts
the condition before it aside and starts a new one, which takes in the whole rest of its group; a
group puts aside everything before it until it is closed.  So chained conditions nest to the right.
-/

namespace FilterQuery

/-- A condition that is being built up. -/
inductive Partial
  | empty
  | field (subject : Token)
  | operator (subject relation : Token)
  | leaf (subject relation : Token) (operand : Operand)
  /-- A list that waits for its next value. -/
  | separated (subject relation : Token) (values : List Token)
  | node (tree : Node)

/-- What has been put aside until the condition at hand is complete. -/
inductive Pending
  /-- The left side of a connective. -/
  | joined (left : Node) (connective : Token)
  /-- An open group. -/
  | group

/-- The state of an assembly: what has been put aside, the latest first, and the condition at
hand. -/
structure Assembly where
  pending : List Pending
  current : Partial

/-- The node of a condition that is complete, or nothing before its first token. -/
def Partial.finish : Partial → Except ParseError (Option Node)
  | empty => .ok none
  | leaf subject relation operand => .ok (some (.leaf subject relation operand))
  | node tree => .ok (some tree)
  | field _ | operator _ _ | separated _ _ _ => .error .incompleteExpression

/-- A node that joins two conditions. -/
def Node.join (left : Node) (connective : Token) (right : Node) : Node :=
  .logic connective [left, right]

namespace Assembly

/-- The state before the first token. -/
def start : Assembly :=
  ⟨[], .empty⟩

/-- Whether a group is open. -/
def hasOpenGroup (pending : List Pending) : Bool :=
  pending.any fun
    | .group => true
    | .joined _ _ => false

/-- Close the innermost group around a condition, joining it with what stands before it. -/
def closeGroup : List Pending → Option Node → Except ParseError Assembly
  | .joined left connective :: pending, some right =>
      closeGroup pending (some (left.join connective right))
  | .group :: pending, some node => .ok ⟨pending, .node node⟩
  | [], _ => .error .unexpectedCloseGroup
  | _ :: _, none => .error .incompleteExpression

/-- The tree at the end of the tokens, if there is one. -/
def close : List Pending → Option Node → Except ParseError (Option Node)
  | [], node => .ok node
  | .joined left connective :: pending, some right =>
      close pending (some (left.join connective right))
  | .joined _ _ :: _, none => .error .incompleteExpression
  | .group :: _, _ => .error .unclosedGroup

/-- Put the condition at hand aside as the left side of a connective. -/
def joinWith (assembly : Assembly) (connective : Token) : Except ParseError Assembly :=
  match assembly.current.finish with
  | .error error => .error error
  | .ok none => .error (.unexpectedToken connective.raw)
  | .ok (some left) => .ok ⟨.joined left connective :: assembly.pending, .empty⟩

/-- Close the innermost group. -/
def closeWith (assembly : Assembly) : Except ParseError Assembly :=
  if hasOpenGroup assembly.pending then
    assembly.current.finish.bind (closeGroup assembly.pending)
  else .error .unexpectedCloseGroup

/-- The condition at hand with one more of its tokens, if the token can go there. -/
def extend? (current : Partial) (token : Token) : Option Partial :=
  match current with
  | .empty => if token.kind.isField then some (.field token) else none
  | .field subject =>
      if token.kind.isComparer then some (.operator subject token)
      else if token.kind.isPresence then some (.leaf subject token (.single Token.noOperand))
      else none
  | .operator subject relation =>
      if token.kind.isValue then some (.leaf subject relation (.single token)) else none
  | .separated subject relation values =>
      if token.kind.isValue then some (.leaf subject relation (.list (values ++ [token])))
      else none
  | .leaf subject relation operand =>
      if token.kind.isSeparator then some (.separated subject relation operand.tokens) else none
  | .node _ => none

/-- The state behind one more token. -/
def step (assembly : Assembly) (token : Token) : Except ParseError Assembly :=
  match token.kind, assembly.current with
  | .space, _ => .ok assembly
  | .invalid, _ => .error (.invalidToken token.raw)
  | .and, _ | .or, _ => assembly.joinWith token
  | .closeGroup, _ => assembly.closeWith
  | .openGroup, .empty => .ok ⟨.group :: assembly.pending, .empty⟩
  | _, current =>
      match extend? current token with
      | some next => .ok ⟨assembly.pending, next⟩
      | none => .error (.unexpectedToken token.raw)

/-- The tree that an assembly has come to at the end of the tokens. -/
def finish (assembly : Assembly) : Except ParseError (Option Node) :=
  assembly.current.finish.bind (close assembly.pending)

end Assembly

/-- The tree that tokens make up, or nothing if there are only spaces. -/
def Node.ofTokens (tokens : List Token) : Except ParseError (Option Node) :=
  (tokens.foldlM Assembly.step Assembly.start).bind Assembly.finish

end FilterQuery
