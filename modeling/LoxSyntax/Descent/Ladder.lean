import LoxSyntax.Descent.Basic

/-!
# The precedence ladder

An expression is read level by level, from the operators that bind weakest to single operands:

* equality: `==` and `!=` between comparisons
* comparison: `>`, `>=`, `<` and `<=` between sums
* term: `-` and `+` between products
* factor: `/` and `*` between operands with operators in front
* unary: `!` and `-` in front of a primary
* primary: a literal, or an expression between parentheses

Operators between operands associate to the left.  A level always answers with a tree: a
missing operand becomes an empty node, and problems are recorded.

Groups nest at most `maxNesting` deep.  A group that opens at that depth is skipped and
leaves an empty node, so that the recursion is on the number of groups that may still open.
-/

namespace LoxSyntax.Descent

/-- How many groups may be open at the same time. -/
def maxNesting : Nat := 64

namespace Ladder

/-- Continues a chain of operands with the operators between them, with the operands so far on
the left.  A chain of `budget` operators needs no larger budget than that, and none is longer
than the rest of the tokens. -/
def chain (operators : List TokenKind) (operand : Step Expr) :
    (budget : Nat) → Expr → Step Expr
  | 0, left => pure left
  | budget + 1, left => do
      match ← accept? operators with
      | some operator =>
          let right ← operand
          chain operators operand budget (.binary left operator right)
      | none => pure left

/-- Reads a chain of at least one operand with operators between them. -/
def leftAssociative (operators : List TokenKind) (operand : Step Expr) : Step Expr := do
  let first ← operand
  let descent ← get
  chain operators operand (descent.rest.length + 1) first

def literal (token : Token) : Expr :=
  .literal (if token.kind = .nilWord then .nil else token.value)

/-- Reads a literal, or a group whose opening parenthesis is handed to `group`, or nothing. -/
def primary (group : Token → Step Expr) : Step Expr := do
  match ← accept? TokenKind.literals with
  | some token => return literal token
  | none =>
      if ← check .leftParen then
        let opening ← advance
        group opening
      else
        return .empty

/-- Reads operators and the operand behind them.  The operator next to the operand is applied
first. -/
def unary (group : Token → Step Expr) : Step Expr := do
  let operators ← takeWhile TokenKind.unaryOperators
  let operand ← primary group
  return operators.foldr .unary operand

def factor (group : Token → Step Expr) : Step Expr :=
  leftAssociative TokenKind.factorOperators (unary group)

def term (group : Token → Step Expr) : Step Expr :=
  leftAssociative TokenKind.termOperators (factor group)

def comparison (group : Token → Step Expr) : Step Expr :=
  leftAssociative TokenKind.comparisonOperators (term group)

def equality (group : Token → Step Expr) : Step Expr :=
  leftAssociative TokenKind.equalityOperators (comparison group)

end Ladder

/-- Reads the rest of a group around an inner expression. -/
def readGroup (inner : Step Expr) : Step Expr := do
  enterGroup
  let expr ← inner
  leaveGroup
  expect .rightParen .unclosedGroup
  return .grouping expr

/-- Skips the rest of a group that is nested too deeply. -/
def skipDeepGroup (opening : Token) : Step Expr := do
  report opening.line .nestedTooDeeply
  skipGroup
  return .empty

/-- Reads an expression in which at most `room` groups may be open at the same time. -/
def expressionWithin : (room : Nat) → Step Expr
  | 0 => Ladder.equality skipDeepGroup
  | room + 1 => Ladder.equality fun _ => readGroup (expressionWithin room)

/-- Reads the rest of a group where at most `room` groups may be open at the same time. -/
def groupWithin : (room : Nat) → Token → Step Expr
  | 0, opening => skipDeepGroup opening
  | room + 1, _ => readGroup (expressionWithin room)

theorem expressionWithin_eq (room : Nat) :
    expressionWithin room = Ladder.equality (groupWithin room) := by
  cases room <;> rfl

/-- Reads a level of the ladder with as much room for groups as the current depth leaves. -/
def atDepth (level : (Token → Step Expr) → Step Expr) : Step Expr := do
  let descent ← get
  level (groupWithin (maxNesting - descent.depth))

def primary : Step Expr := atDepth Ladder.primary

def unary : Step Expr := atDepth Ladder.unary

def factor : Step Expr := atDepth Ladder.factor

def term : Step Expr := atDepth Ladder.term

def comparison : Step Expr := atDepth Ladder.comparison

def equality : Step Expr := atDepth Ladder.equality

def expression : Step Expr := equality

end Descent

/-- Why a list of tokens has no tree, or none without problems. -/
inductive ParseError where
  /-- There were problems; the tree is the best that could be made of the tokens. -/
  | rejected (diagnostics : List Diagnostic) (expr : Expr)
  | outOfTokens
deriving DecidableEq

/-- The wording of the error: the problems on a line each. -/
def ParseError.message : ParseError → String
  | rejected diagnostics _ => "\n".intercalate (diagnostics.map Diagnostic.message)
  | outOfTokens => OutOfTokens.outOfTokens.message

namespace Descent

/-- Reads an expression and rejects it if any problem has been recorded so far. -/
def parse : Step (Except ParseError Expr) := do
  let expr ← expression
  let descent ← get
  return if descent.diagnostics.isEmpty then .ok expr
    else .error (.rejected descent.diagnostics expr)

end Descent

/-- The tree of the expression that a list of tokens begins with. -/
def Expr.ofTokens (tokens : List Token) : Except ParseError Expr :=
  match Descent.parse.run (Descent.ofTokens tokens) with
  | .ok answer _ => answer
  | .error _ _ => .error .outOfTokens

end LoxSyntax
