import LoxSyntax.Descent.Ladder
import LoxSyntax.Scan.Tokens

/-!
# Reports

A report on a source text holds its tokens, its tree and everything that is wrong with it: the
diagnostics of the scan, those of the parser, and last a fault of the parser itself.
-/

namespace LoxSyntax

structure Report where
  tokens : List Token
  expr : Option Expr
  diagnostics : List Diagnostic
  /-- The description of a failure that no source text accounts for. -/
  fault : Option String
deriving DecidableEq

/-- How a parser fails on a list of tokens. -/
inductive ParserFailure where
  /-- The tokens have problems; the tree is the best that could be made of them. -/
  | rejected (diagnostics : List Diagnostic) (expr : Expr)
  | fault (description : String)
deriving DecidableEq

/-- The failure that an error of the precedence ladder amounts to. -/
def ParserFailure.ofParseError : ParseError → ParserFailure
  | .rejected diagnostics expr => rejected diagnostics expr
  | .outOfTokens => fault ParseError.outOfTokens.message

namespace Report

/-- The report on a source text by means of a given parser. -/
def ofSourceWith (parse : List Token → Except ParserFailure Expr) (source : String) : Report :=
  let (tokens, scan) := (Scan.ofText source).tokens
  match parse tokens with
  | .ok expr => ⟨tokens, some expr, scan.diagnostics, none⟩
  | .error (.rejected diagnostics expr) =>
      ⟨tokens, some expr, scan.diagnostics ++ diagnostics, none⟩
  | .error (.fault description) => ⟨tokens, none, scan.diagnostics, some description⟩

def ofSource (source : String) : Report :=
  ofSourceWith (fun tokens => (Expr.ofTokens tokens).mapError .ofParseError) source

/-- What is wrong with the source text, a message each. -/
def errors (report : Report) : List String :=
  report.diagnostics.map Diagnostic.message ++
    (report.fault.map fun description => "Internal error: " ++ description).toList

def success (report : Report) : Bool :=
  report.errors.isEmpty

/-- All messages with a line feed between them, if there are any. -/
def error? (report : Report) : Option String :=
  if report.errors.isEmpty then none else some ("\n".intercalate report.errors)

def exprsAgree : Option Expr → Option Expr → Bool
  | some left, some right => left.agrees right
  | none, none => true
  | _, _ => false

def agrees (left right : Report) : Bool :=
  left.success = right.success && Token.listsAgree left.tokens right.tokens &&
    exprsAgree left.expr right.expr && left.errors = right.errors

end Report

end LoxSyntax
