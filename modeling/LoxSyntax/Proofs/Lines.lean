import LoxSyntax.Proofs.Descent.Run
import LoxSyntax.Proofs.Tree.Pending

/-!
# Lines do not matter

Tokens, trees and diagnostics can be put on other lines.  A level reads tokens on other lines as
it reads them on their own (`Reads.mapLines`), and trees are shown without their lines.

So two lists of tokens that differ in their lines, and in the token that ends them, are read
alike (`Parses.alike`).
-/

namespace LoxSyntax

def Token.mapLine (change : Int → Int) (token : Token) : Token :=
  { token with line := change token.line }

def Diagnostic.mapLine (change : Int → Int) (diagnostic : Diagnostic) : Diagnostic :=
  { diagnostic with line := change diagnostic.line }

/-- A tree whose operators stand on other lines. -/
def Tree.mapLines {α : Type} (change : Int → Int) : Tree α → Tree α
  | literal value => literal value
  | grouping inner => grouping (inner.mapLines change)
  | unary operator right => unary (operator.mapLine change) (right.mapLines change)
  | binary left operator right =>
      binary (left.mapLines change) (operator.mapLine change) (right.mapLines change)
  | empty => empty
  | hole content => hole content

/-- Puts everything on the first line. -/
def toFirstLine : Int → Int :=
  fun _ => 1

variable (change : Int → Int)

@[simp]
theorem Token.kind_mapLine (token : Token) : (token.mapLine change).kind = token.kind :=
  rfl

@[simp]
theorem Diagnostic.problem_mapLine (diagnostic : Diagnostic) :
    (diagnostic.mapLine change).problem = diagnostic.problem :=
  rfl

namespace Tree

variable {α ε : Type} (showHole : α → Except ε String)

theorem operatorText_mapLine (operator : Token) :
    operatorText (operator.mapLine change) = operatorText operator :=
  rfl

theorem prefixForm_mapLines (tree : Tree α) :
    (tree.mapLines change).prefixForm showHole = tree.prefixForm showHole := by
  induction tree with
  | literal | empty | hole => rfl
  | grouping inner ih => simp only [mapLines, prefixForm, ih]
  | unary operator right ih => simp only [mapLines, prefixForm, ih, operatorText_mapLine]
  | binary left operator right leftIh rightIh =>
      simp only [mapLines, prefixForm, leftIh, rightIh, operatorText_mapLine]

theorem outline_mapLines (tree : Tree α) (level : Int) :
    (tree.mapLines change).outline showHole level = tree.outline showHole level := by
  induction tree generalizing level with
  | literal | empty | hole => rfl
  | grouping inner ih => simp only [mapLines, outline, ih]
  | unary operator right ih => simp only [mapLines, outline, ih, operatorText_mapLine]
  | binary left operator right leftIh rightIh =>
      simp only [mapLines, outline, leftIh, rightIh, operatorText_mapLine]

end Tree

theorem Expr.prefixText_mapLines (expr : Expr) :
    Expr.prefixText (expr.mapLines change) = expr.prefixText := by
  simp only [prefixText, Tree.toPrefixForm_eq, Tree.prefixForm_mapLines]

theorem Expr.outlineText_mapLines (expr : Expr) :
    Expr.outlineText (expr.mapLines change) = expr.outlineText := by
  simp only [outlineText, outlineLines, Tree.toOutline_eq, Tree.outline_mapLines]

theorem Skips.mapLines
    {opened : Nat} {tokens : List Token} {next stop : Token}
    (skips : Skips opened tokens next) (kind : stop.kind = next.kind) :
    Skips opened (tokens.map (Token.mapLine change)) stop := by
  induction skips with
  | closed => exact .closed
  | ending isEnd => exact .ending (kind.trans isEnd)
  | opening isOpening _ ih => exact .opening isOpening (ih kind)
  | closing isClosing _ ih => exact .closing isClosing (ih kind)
  | plain plain _ ih => exact .plain plain (ih kind)

theorem Descent.Ladder.literal_mapLine (token : Token) :
    literal (token.mapLine change) = (literal token).mapLines change :=
  rfl

/-- What a level reads it reads on other lines as well, in front of any token of the same kind
on the other line. -/
theorem Reads.mapLines
    {level : Level} {room : Nat} {tokens : List Token} {next stop : Token} {expr : Expr}
    {diagnostics : List Diagnostic}
    (reads : Reads level room tokens next expr diagnostics)
    (kind : stop.kind = next.kind) (line : stop.line = change next.line) :
    Reads level room (tokens.map (Token.mapLine change)) stop (expr.mapLines change)
      (diagnostics.map (Diagnostic.mapLine change)) := by
  induction reads generalizing stop with
  | @literal room token next isLiteral =>
      rw [← Descent.Ladder.literal_mapLine]
      exact .literal isLiteral
  | missing notLiteral notOpening =>
      rw [← kind] at notLiteral notOpening
      exact .missing notLiteral notOpening
  | @closed room opening closing next tokens inner diagnostics isOpening _ isClosing ih =>
      have opens : (opening.mapLine change).kind = .leftParen := isOpening
      have closes : (closing.mapLine change).kind = .rightParen := isClosing
      rw [List.map_append]
      exact .closed opens (ih rfl rfl) closes
  | @unclosed room opening next tokens inner diagnostics isOpening _ stops notClosing ih =>
      have opens : (opening.mapLine change).kind = .leftParen := isOpening
      rw [← kind] at stops notClosing
      have whole := Reads.unclosed opens (ih kind line) stops notClosing
      rw [line] at whole
      rw [List.map_append]
      exact whole
  | deep isOpening skips => exact .deep isOpening (skips.mapLines change kind)
  | @operand room next tokens expr diagnostics notOperator _ ih =>
      refine .operand ?_ (ih kind line)
      cases tokens with
      | nil =>
          rw [List.map_nil, List.headD_nil, kind]
          exact notOperator
      | cons token tokens => exact notOperator
  | unary isOperator _ ih => exact .unary isOperator (ih kind line)
  | single _ stops ih =>
      rw [← kind] at stops
      exact .single (ih kind line) stops
  | @binary precedence room operator next lefts rights left right leftDiagnostics
      rightDiagnostics _ isOperator _ stops leftIh rightIh =>
      have joins : (operator.mapLine change).kind ∈ precedence.operators := isOperator
      rw [← kind] at stops
      rw [List.map_append, List.map_append]
      exact .binary (leftIh rfl rfl) joins (rightIh kind line) stops

namespace Parses

open Descent

/-- A list is parsed in one way only. -/
theorem unique
    {list : List Token} {position otherPosition : Nat} {next other : Token}
    {expr otherExpr : Expr} {diagnostics otherDiagnostics : List Diagnostic}
    (parses : Parses list position next expr diagnostics)
    (parsesToo : Parses list otherPosition other otherExpr otherDiagnostics) :
    position = otherPosition ∧ expr = otherExpr ∧ diagnostics = otherDiagnostics := by
  have run := parses.parse_eq.symm.trans parsesToo.parse_eq
  injection run with answers descents
  refine ⟨?_, ?_, ?_⟩
  · rw [← parses.position_past, descents, parsesToo.position_past]
  · have trees := congrArg bestEffort? answers
    rw [bestEffort?_verdict, bestEffort?_verdict] at trees
    exact Option.some.inj trees
  · exact congrArg Descent.diagnostics descents

/-- On the first line, and with a bare token at the end, a list is parsed as on its own lines. -/
theorem onFirstLine
    {others : List Token} {last next : Token} {position : Nat} {expr : Expr}
    {diagnostics : List Diagnostic}
    (parses : Parses (others ++ [last]) position next expr diagnostics)
    (isEnd : last.kind = .endOfInput) :
    ∃ stop,
      Parses (others.map (Token.mapLine toFirstLine) ++ [Token.bare .endOfInput]) position stop
        (expr.mapLines toFirstLine) (diagnostics.map (Diagnostic.mapLine toFirstLine)) := by
  obtain ⟨atPosition, reads, stops⟩ := parses
  have inside : position ≤ others.length := by
    have bound := (List.getElem?_eq_some_iff.1 atPosition).1
    simp only [List.length_append, List.length_singleton] at bound
    omega
  let relined := others.map (Token.mapLine toFirstLine) ++ [Token.bare .endOfInput]
  have taken :
      relined.take position =
        ((others ++ [last]).take position).map (Token.mapLine toFirstLine) := by
    rw [List.take_append_of_le_length (by simpa using inside),
      List.take_append_of_le_length inside, List.map_take]
  have alike (stop : Token) (kind : stop.kind = next.kind) (line : stop.line = 1)
      (there : relined[position]? = some stop) :
      Parses relined position stop (expr.mapLines toFirstLine)
        (diagnostics.map (Diagnostic.mapLine toFirstLine)) := by
    refine ⟨there, ?_, ?_⟩
    · rw [taken]
      exact reads.mapLines toFirstLine kind line
    · rw [kind]
      exact stops
  by_cases before : position < others.length
  · refine ⟨next.mapLine toFirstLine, alike _ rfl rfl ?_⟩
    rw [List.getElem?_append_left before] at atPosition
    rw [List.getElem?_append_left (by simpa using before), List.getElem?_map, atPosition]
    rfl
  · have atEnd : position = others.length := Nat.le_antisymm inside (Nat.le_of_not_lt before)
    subst atEnd
    have isLast : next = last := by simpa using atPosition.symm
    refine ⟨.bare .endOfInput, alike _ ?_ rfl (by simp [relined])⟩
    rw [isLast, isEnd]
    rfl

/-- Lists that differ in lines and in what ends them only are parsed alike. -/
theorem alike
    {others : List Token} {last next : Token} {position : Nat} {expr : Expr}
    {diagnostics : List Diagnostic}
    (parses : Parses (others ++ [last]) position next expr diagnostics)
    (isEnd : last.kind = .endOfInput)
    {relined : List Token} {relinedLast stop : Token} {relinedPosition : Nat}
    {relinedExpr : Expr} {relinedDiagnostics : List Diagnostic}
    (relinedParses : Parses (relined ++ [relinedLast]) relinedPosition stop relinedExpr
      relinedDiagnostics)
    (relinedIsEnd : relinedLast.kind = .endOfInput)
    (same : relined.map (Token.mapLine toFirstLine) =
      others.map (Token.mapLine toFirstLine)) :
    relinedExpr.mapLines toFirstLine = expr.mapLines toFirstLine ∧
      relinedDiagnostics.map Diagnostic.problem = diagnostics.map Diagnostic.problem := by
  obtain ⟨_, plain⟩ := parses.onFirstLine isEnd
  obtain ⟨_, relinedPlain⟩ := relinedParses.onFirstLine relinedIsEnd
  rw [same] at relinedPlain
  obtain ⟨_, sameExpr, sameDiagnostics⟩ := relinedPlain.unique plain
  refine ⟨sameExpr, ?_⟩
  have problems := congrArg (List.map Diagnostic.problem) sameDiagnostics
  simpa [Function.comp_def] using problems

end Parses

end LoxSyntax
