import LoxSyntax.Token.Basic

/-!
# Expression trees

A tree is built from literals, groups in parentheses, operators before one operand and between
two, and placeholders for missing operands.  A tree over `α` may have further leaves, its
*holes*, that carry an `α`.  An expression has no holes; a sketch may have holes that hold a
text or nothing.
-/

namespace LoxSyntax

/-- An expression tree with holes of type `α`. -/
inductive Tree (α : Type) where
  | literal (value : Value)
  | grouping (inner : Tree α)
  | unary (operator : Token) (right : Tree α)
  | binary (left : Tree α) (operator : Token) (right : Tree α)
  /-- Stands where an operand was expected but none was found. -/
  | empty
  | hole (content : α)
deriving DecidableEq

abbrev Expr := Tree Empty

/-- What stands in the place of a node of a sketch. -/
inductive Hole where
  | text (text : String)
  | nothing
deriving DecidableEq

/-- A tree in which texts or nothing may stand in the place of nodes. -/
abbrev Sketch := Tree Hole

/-- A tree has a node that cannot be shown; its content is given unambiguously. -/
structure UnknownNode where
  content : String
deriving DecidableEq, Repr

def UnknownNode.message (node : UnknownNode) : String :=
  "Unknown expression node: " ++ node.content

/-- The content of a hole shown unambiguously. -/
def Hole.inspected : Hole → String
  | text content => Text.quoted content
  | nothing => "None"

namespace Tree

variable {α : Type}

def size : Tree α → Nat
  | literal _ => 1
  | grouping inner => inner.size + 1
  | unary _ right => right.size + 1
  | binary left _ right => left.size + right.size + 1
  | empty => 1
  | hole _ => 1

/-- Whether two trees have the same shape with equal values and operators. -/
def agrees [DecidableEq α] : Tree α → Tree α → Bool
  | literal left, literal right => left.agrees right
  | grouping left, grouping right => left.agrees right
  | unary leftOperator left, unary rightOperator right =>
      leftOperator.agrees rightOperator && left.agrees right
  | binary left₁ operator₁ right₁, binary left₂ operator₂ right₂ =>
      left₁.agrees left₂ && operator₁.agrees operator₂ && right₁.agrees right₂
  | empty, empty => true
  | hole left, hole right => left = right
  | _, _ => false

/-- An operator as it is shown in a tree. -/
def operatorText (operator : Token) : String :=
  operator.lexeme.getD "None"

end Tree

end LoxSyntax
