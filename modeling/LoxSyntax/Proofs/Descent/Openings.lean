import LoxSyntax.Proofs.Descent.Activation

/-!
# Where groups are read

The ladder reads a group, or skips it, only at the descents of moments at which that is what is
to be done, behind the opening parenthesis.  At all other descents something else could stand in
the place of groups: the ladder would not come to it (`parseThrough_eq`).
-/

namespace LoxSyntax

open Descent Moment

namespace Descent

/-- Reads the rest of a group like `groupWithin`, but reads and skips groups as `through` does. -/
def groupThrough (through : Token → Step Expr → Step Expr) : (room : Nat) → Token → Step Expr
  | 0, opening => through opening (skipDeepGroup opening)
  | room + 1, opening =>
      through opening (readGroup (Ladder.equality (groupThrough through room)))

/-- Reads an expression like `parse`, but reads and skips groups as `through` does. -/
def parseThrough (through : Token → Step Expr → Step Expr) : Step (Except ParseError Expr) := do
  let expr ← Ladder.equality (groupThrough through maxNesting)
  let descent ← get
  return verdict expr descent.diagnostics

end Descent

/-- Behind its opening parenthesis a group is to be read. -/
theorem leads_group
    {start : Moment} {descent : Descent} {opening : Token} {later : List Token}
    {waiting : List Activation} (reached : Leads start ⟨descent, .primary, waiting⟩)
    (ahead : descent.rest = opening :: later) (isOpening : opening.kind = .leftParen) :
    Leads start ⟨descent.past [opening] [], .group opening, waiting⟩ :=
  reached.trans (.move (move_primary_of_opening ahead isOpening) (.refl _))

/-- Where there is room, an expression is to be read inside a group. -/
theorem leads_inside
    {start : Moment} {descent : Descent} {opening : Token} {waiting : List Activation}
    (reached : Leads start ⟨descent, .group opening, waiting⟩)
    (hasRoom : descent.depth < maxNesting) :
    Leads start
      ⟨descent.deeper, Level.expression.task [], .expression :: .group :: waiting⟩ :=
  reached.trans (.move (move_group_of_room hasRoom opening) (.move rfl (.refl _)))

section Through

variable {start : Moment} {through : Token → Step Expr → Step Expr}
  (unchanged : ∀ (opening : Token) (group : Step Expr) (descent : Descent)
    (waiting : List Activation),
    Leads start ⟨descent, .group opening, waiting⟩ → through opening group descent = group descent)

include unchanged

/-- What a level reads behind a moment it reads in the same way when groups are read through
something that changes nothing at the moments to come. -/
theorem Reads.resumes_through
    {level : Level} {room : Nat} {tokens : List Token} {next : Token} {expr : Expr}
    {diagnostics : List Diagnostic}
    (reads : Reads level room tokens next expr diagnostics)
    {descent : Descent} {later operators : List Token} {waiting : List Activation}
    (ahead : descent.rest = tokens ++ next :: later)
    (within : descent.depth + room = maxNesting)
    (reached : Leads start ⟨descent, level.task operators, waiting⟩) :
    level.Resumes (groupThrough through room) descent expr
      (descent.past tokens diagnostics) := by
  induction reads generalizing descent later operators waiting with
  | literal isLiteral => exact .of_primary (primary_of_literal ahead isLiteral)
  | missing notLiteral notOpening =>
      rw [past_nil]
      exact .of_primary (primary_of_missing ahead notLiteral notOpening)
  | @closed room opening closing next tokens inner diagnostics isOpening _ isClosing ih =>
      have whole : descent.rest = opening :: (tokens ++ closing :: next :: later) := by
        simpa using ahead
      have stops : closing.kind ∉ Level.expression.operators := by
        rw [isClosing]
        decide
      have atGroup := leads_group reached whole isOpening
      have hasRoom : (descent.past [opening] []).depth < maxNesting :=
        Nat.lt_of_lt_of_le (Nat.lt_add_of_pos_right room.succ_pos) (Nat.le_of_eq within)
      have inFront : (descent.past [opening] []).deeper.rest =
          tokens ++ closing :: next :: later :=
        rest_past_singleton whole []
      have deeperWithin : (descent.past [opening] []).deeper.depth + room = maxNesting := by
        simp only [deeper, past]
        omega
      have resumes := ih inFront deeperWithin (leads_inside atGroup hasRoom)
      have inside := resumes.step_eq (rest_past inFront diagnostics) stops
      exact .of_primary (primary_of_closed whole isOpening isClosing
        (unchanged opening _ _ _ atGroup) inside)
  | @unclosed room opening next tokens inner diagnostics isOpening _ stops notClosing ih =>
      have atGroup := leads_group reached ahead isOpening
      have hasRoom : (descent.past [opening] []).depth < maxNesting :=
        Nat.lt_of_lt_of_le (Nat.lt_add_of_pos_right room.succ_pos) (Nat.le_of_eq within)
      have inFront : (descent.past [opening] []).deeper.rest = tokens ++ next :: later :=
        rest_past_singleton ahead []
      have deeperWithin : (descent.past [opening] []).deeper.depth + room = maxNesting := by
        simp only [deeper, past]
        omega
      have resumes := ih inFront deeperWithin (leads_inside atGroup hasRoom)
      have inside := resumes.step_eq (rest_past inFront diagnostics) stops
      exact .of_primary (primary_of_unclosed ahead isOpening notClosing
        (unchanged opening _ _ _ atGroup) inside)
  | @deep opening next tokens isOpening skips =>
      have atGroup := leads_group reached ahead isOpening
      exact .of_primary (primary_of_deep ahead isOpening skips
        (unchanged opening _ _ _ atGroup))
  | @operand room next tokens expr diagnostics notOperator _ ih =>
      have first : ∃ rest, descent.rest = tokens.headD next :: rest := by
        cases tokens <;> exact ⟨_, ahead⟩
      obtain ⟨rest, inFront⟩ := first
      have atPrimary : Leads start ⟨descent, Level.primary.task [], .signed operators :: waiting⟩ :=
        reached.trans (.move (move_signs_of_not_mem inFront notOperator operators) (.refl _))
      refine (ih ahead within atPrimary).operand ?_
      rw [ahead]
      exact signs_eq_nil notOperator
  | unary isOperator _ ih =>
      have atOperand :=
        reached.trans (.move (move_signs_of_mem ahead isOperator operators) (.refl _))
      have operand := ih (rest_past_singleton ahead []) within atOperand
      rw [past_past] at operand
      exact .signed ahead isOperator operand
  | @single precedence room next tokens expr diagnostics _ stops ih =>
      have resumes := ih ahead within (reached.trans (.move rfl (.refl _)))
      exact .first (resumes.step_eq (rest_past ahead diagnostics) stops)
  | @binary precedence room operator next lefts rights left right leftDiagnostics
      rightDiagnostics leftReads isOperator _ stops leftIh rightIh =>
      have inFront : descent.rest = lefts ++ operator :: (rights ++ next :: later) := by
        simpa using ahead
      have atOperator := rest_past inFront leftDiagnostics
      have behind := rest_past_singleton atOperator []
      have atNext := rest_past behind rightDiagnostics
      have chained := reached.trans (leftReads.leads inFront within operators waiting)
      have atRight := chained.trans (.move (move_chain_of_mem atOperator isOperator left) (.refl _))
      have rightReads := (rightIh behind within atRight).step_eq atNext stops
      have whole := (leftIh inFront within reached).joined atOperator isOperator rightReads
        (by rw [atNext]; simp)
      simpa using whole

end Through

/-- Every descent at which a group is read or skipped is that of a moment behind its opening
parenthesis.  For reading groups through anything that changes nothing at these moments, a failure
anywhere else included, makes no difference. -/
theorem Descent.parseThrough_eq
    {list : List Token} (ended : Ended list) {through : Token → Step Expr → Step Expr}
    (unchanged : ∀ (opening : Token) (group : Step Expr) (descent : Descent)
      (waiting : List Activation),
      Leads (.ofTokens list) ⟨descent, .group opening, waiting⟩ →
        through opening group descent = group descent) :
    parseThrough through (Descent.ofTokens list) = parse (Descent.ofTokens list) := by
  obtain ⟨position, next, expr, diagnostics, parses⟩ := exists_parses ended
  have ahead : (Descent.ofTokens list).rest =
      list.take position ++ next :: list.drop (position + 1) :=
    parses.eq_append
  have outside : (Descent.ofTokens list).depth + maxNesting = maxNesting := Nat.zero_add maxNesting
  have reached : Leads (.ofTokens list)
      ⟨Descent.ofTokens list, Level.expression.task [], [.expression]⟩ :=
    .move rfl (.refl _)
  have resumes := parses.reads.resumes_through unchanged ahead outside reached
  have reading := resumes.step_eq (rest_past ahead diagnostics) parses.stops
  rw [parses.parse_eq, parseThrough]
  exact (bind_ok reading).trans (bind_ok (get_apply _))

end LoxSyntax
