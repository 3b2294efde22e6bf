import LoxSyntax.Text.Digit

/-!
# Diagnostics

A diagnostic names a problem in a source text and the line on which it was noticed.
-/

namespace LoxSyntax

inductive Problem where
  /-- A run of digits that is not a numeral. -/
  | invalidNumber (lexeme : String)
  /-- A group inside as many groups as may be open at the same time. -/
  | nestedTooDeeply
  /-- A group whose closing parenthesis is missing. -/
  | unclosedGroup
  /-- A missing token, in the words of whoever asked for it. -/
  | missing (description : String)
deriving DecidableEq, Repr

def Problem.description : Problem → String
  | invalidNumber lexeme => "invalid number literal '" ++ lexeme ++ "'"
  | nestedTooDeeply => "expression nested too deeply"
  | unclosedGroup => "expecting ')'"
  | missing description => description

structure Diagnostic where
  line : Int
  problem : Problem
deriving DecidableEq, Repr

def Diagnostic.message (diagnostic : Diagnostic) : String :=
  "line " ++ Text.decimalText diagnostic.line ++ ": " ++ diagnostic.problem.description

end LoxSyntax
