import LoxSyntax.Diagnostic
import LoxSyntax.Tree.Basic

/-!
# A descent in progress

A descent moves through a list of tokens from left to right and never goes back.  The list
should hold a token that ends the input: the descent stays in front of the first such token,
and a look beyond the end of a list without one fails.

A failed step keeps the state that it had reached.
-/

namespace LoxSyntax

structure Descent where
  /-- The tokens that have been taken, the latest first. -/
  taken : List Token
  rest : List Token
  depth : Nat
  /-- The diagnostics so far, the earliest first. -/
  diagnostics : List Diagnostic
deriving DecidableEq

/-- A look beyond the end of the list of tokens. -/
inductive OutOfTokens where
  | outOfTokens
deriving DecidableEq, Repr

def OutOfTokens.message : OutOfTokens → String
  | outOfTokens => "list index out of range"

namespace Descent

/-- A step of a descent: an answer, or a failure for want of tokens, with the new state. -/
abbrev Step (α : Type) := EStateM OutOfTokens Descent α

def ofTokens (tokens : List Token) : Descent where
  taken := []
  rest := tokens
  depth := 0
  diagnostics := []

def position (descent : Descent) : Nat :=
  descent.taken.length

def current : Step Token := fun descent =>
  match descent.rest with
  | token :: _ => .ok token descent
  | [] => .error .outOfTokens descent

/-- The token taken last.  At the beginning it is the last token of the list. -/
def previous : Step Token := fun descent =>
  match descent.taken, descent.rest.getLast? with
  | token :: _, _ => .ok token descent
  | [], some token => .ok token descent
  | [], none => .error .outOfTokens descent

def check (kind : TokenKind) : Step Bool := do
  let token ← current
  return token.kind = kind

def atEnd : Step Bool :=
  check .endOfInput

def takeOne (descent : Descent) : Descent :=
  { descent with
    taken := descent.rest.take 1 ++ descent.taken
    rest := descent.rest.drop 1 }

/-- Takes the token in front unless it ends the input, and answers with the token taken last. -/
def advance : Step Token := do
  if !(← atEnd) then modify takeOne
  previous

/-- Takes the token in front if it is of one of the given kinds. -/
def accept? (kinds : List TokenKind) : Step (Option Token) := do
  let token ← current
  if token.kind ∈ kinds then some <$> advance else return none

/-- Takes the tokens in front as long as they are of the given kinds. -/
def takeWhile (kinds : List TokenKind) : Step (List Token) := fun descent =>
  let run := descent.rest.takeWhile fun token => token.kind ∈ kinds
  .ok run
    { descent with
      taken := run.reverse ++ descent.taken
      rest := descent.rest.drop run.length }

def report (line : Int) (problem : Problem) : Step Unit :=
  modify fun descent =>
    { descent with diagnostics := descent.diagnostics ++ [⟨line, problem⟩] }

/-- Takes a token of the given kind, or records a problem on the line of the token in front. -/
def expect (kind : TokenKind) (problem : Problem) : Step Unit := do
  let token ← current
  if token.kind = kind then discard advance else report token.line problem

/-- Takes tokens until as many groups are closed as are `opened`, but not the end of the
input. -/
def closeGroups (descent : Descent) :
    (opened : Nat) → (taken rest : List Token) → EStateM.Result OutOfTokens Descent Unit
  | 0, taken, rest => .ok () { descent with taken := taken, rest := rest }
  | _ + 1, taken, [] => .error .outOfTokens { descent with taken := taken, rest := [] }
  | opened + 1, taken, token :: rest =>
      match token.kind with
      | .endOfInput => .ok () { descent with taken := taken, rest := token :: rest }
      | .leftParen => closeGroups descent (opened + 2) (token :: taken) rest
      | .rightParen => closeGroups descent opened (token :: taken) rest
      | _ => closeGroups descent (opened + 1) (token :: taken) rest

/-- Takes the rest of a group whose opening parenthesis has been taken. -/
def skipGroup : Step Unit := fun descent =>
  closeGroups descent 1 descent.taken descent.rest

def enterGroup : Step Unit :=
  modify fun descent => { descent with depth := descent.depth + 1 }

def leaveGroup : Step Unit :=
  modify fun descent => { descent with depth := descent.depth - 1 }

end Descent

end LoxSyntax
