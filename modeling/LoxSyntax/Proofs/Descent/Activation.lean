import Mathlib.Logic.Function.Iterate
import LoxSyntax.Proofs.Descent.Depth

/-!
# A descent move by move

A moment of a descent holds what is to be done next and the activations that wait for an answer,
the innermost first.  A move looks at one token, takes one, enters or leaves a group, or hands an
answer to the activation that waits for it.  Operators in front of an operand, and the operands of
a chain, are read in loops: neither makes more activations wait.

The moves lead to what the ladder answers (`Reads.leads`).
-/

namespace LoxSyntax

open Descent

namespace Descent

/-- What waits for an answer. -/
inductive Activation where
  /-- An expression whose chain is read. -/
  | expression
  /-- A chain whose first operand is read. -/
  | first (precedence : Precedence)
  /-- A chain whose next operand is read, behind an operator. -/
  | right (precedence : Precedence) (left : Expr) (operator : Token)
  /-- Operators whose operand is read. -/
  | signed (operators : List Token)
  /-- A group whose inner expression is read. -/
  | group
deriving DecidableEq

/-- What is to be done next. -/
inductive Task where
  | expression
  | first (precedence : Precedence)
  /-- To go on with a chain, with the operands so far on the left. -/
  | chain (precedence : Precedence) (left : Expr)
  /-- To go on with the operators in front of an operand. -/
  | signs (operators : List Token)
  | primary
  /-- To enter a group behind its opening parenthesis, or to skip it. -/
  | group (opening : Token)
  /-- To skip what is left of so many groups. -/
  | skip (opened : Nat)
  | answer (expr : Expr)
deriving DecidableEq

structure Moment where
  descent : Descent
  task : Task
  waiting : List Activation
deriving DecidableEq

end Descent

/-- How the reading of a level begins, behind some operators in front of an operand. -/
def Level.task (operators : List Token) : Level → Task
  | chain precedence => .first precedence
  | unary => .signs operators
  | primary => .primary

namespace Descent

/-- What an activation does with the answer that it waits for. -/
def Activation.resume (expr : Expr) : Activation → Step Task
  | expression => return .answer expr
  | first precedence => return .chain precedence expr
  | right precedence left operator => return .chain precedence (.binary left operator expr)
  | signed operators => return .answer (operators.foldr .unary expr)
  | group => do
      leaveGroup
      expect .rightParen .unclosedGroup
      return .answer (.grouping expr)

/-- A single move: what is to be done behind it, and what waits then.  An answer that nothing
waits for stays. -/
def Task.move : Task → List Activation → Step (Task × List Activation)
  | expression, waiting => return (.first .equality, .expression :: waiting)
  | first precedence, waiting =>
      return (precedence.operand.task [], .first precedence :: waiting)
  | chain precedence left, waiting => do
      match ← accept? precedence.operators with
      | some operator =>
          return (precedence.operand.task [], .right precedence left operator :: waiting)
      | none => return (.answer left, waiting)
  | signs operators, waiting => do
      match ← accept? TokenKind.unaryOperators with
      | some operator => return (.signs (operators ++ [operator]), waiting)
      | none => return (.primary, .signed operators :: waiting)
  | primary, waiting => do
      match ← accept? TokenKind.literals with
      | some token => return (.answer (Ladder.literal token), waiting)
      | none =>
          if ← check .leftParen then
            let opening ← advance
            return (.group opening, waiting)
          else
            return (.answer .empty, waiting)
  | group opening, waiting => do
      let descent ← get
      if maxNesting ≤ descent.depth then
        report opening.line .nestedTooDeeply
        return (.skip 1, waiting)
      else
        enterGroup
        return (.expression, .group :: waiting)
  | skip 0, waiting => return (.answer .empty, waiting)
  | skip (opened + 1), waiting => do
      if ← atEnd then
        return (.answer .empty, waiting)
      else
        let token ← advance
        return (.skip (token.kind.openBehind (opened + 1)), waiting)
  | answer expr, [] => return (.answer expr, [])
  | answer expr, activation :: waiting => do
      let task ← activation.resume expr
      return (task, waiting)

namespace Moment

/-- A fresh descent on a list, where an expression is to be read. -/
def ofTokens (list : List Token) : Moment :=
  ⟨Descent.ofTokens list, .expression, []⟩

/-- The moment behind one move.  Where tokens are wanting, no move can be made. -/
def next (moment : Moment) : Moment :=
  match moment.task.move moment.waiting moment.descent with
  | .ok (task, waiting) descent => ⟨descent, task, waiting⟩
  | .error _ _ => moment

/-- Some moves lead from one moment to another. -/
def Leads (moment later : Moment) : Prop :=
  ∃ count, next^[count] moment = later

theorem next_eq
    {descent behind : Descent} {task later : Task} {waiting laterWaiting : List Activation}
    (moves : task.move waiting descent = .ok (later, laterWaiting) behind) :
    next ⟨descent, task, waiting⟩ = ⟨behind, later, laterWaiting⟩ := by
  simp only [next, moves]

namespace Leads

variable {moment between later : Moment}

theorem refl (moment : Moment) : Leads moment moment :=
  ⟨0, rfl⟩

theorem trans (first : Leads moment between) (second : Leads between later) :
    Leads moment later := by
  obtain ⟨firstCount, rfl⟩ := first
  obtain ⟨secondCount, rfl⟩ := second
  refine ⟨secondCount + firstCount, ?_⟩
  exact Function.iterate_add_apply next secondCount firstCount moment

/-- A move in front of others. -/
theorem move
    {descent behind : Descent} {task nextTask : Task} {waiting nextWaiting : List Activation}
    (moves : task.move waiting descent = .ok (nextTask, nextWaiting) behind)
    (leads : Leads ⟨behind, nextTask, nextWaiting⟩ later) :
    Leads ⟨descent, task, waiting⟩ later :=
  trans ⟨1, next_eq moves⟩ leads

end Leads

end Moment

/-! ## Moves in front of a token -/

section Moves

variable {descent : Descent} {token : Token} {ahead : List Token} {waiting : List Activation}

theorem move_chain_of_mem
    (inFront : descent.rest = token :: ahead) {precedence : Precedence}
    (isOperator : token.kind ∈ precedence.operators) (left : Expr) :
    (Task.chain precedence left).move waiting descent =
      .ok (precedence.operand.task [], .right precedence left token :: waiting)
        (descent.past [token] []) :=
  bind_ok (accept?_eq_some inFront (Precedence.plain_of_mem isOperator).goesOn isOperator)

theorem move_chain_of_not_mem
    (inFront : descent.rest = token :: ahead) {precedence : Precedence}
    (stops : token.kind ∉ precedence.operators) (left : Expr) :
    (Task.chain precedence left).move waiting descent = .ok (.answer left, waiting) descent :=
  bind_ok (accept?_eq_none inFront stops)

theorem move_signs_of_mem
    (inFront : descent.rest = token :: ahead)
    (isOperator : token.kind ∈ TokenKind.unaryOperators) (operators : List Token) :
    (Task.signs operators).move waiting descent =
      .ok (.signs (operators ++ [token]), waiting) (descent.past [token] []) :=
  bind_ok
    (accept?_eq_some inFront (TokenKind.plain_of_mem_unaryOperators isOperator).goesOn isOperator)

theorem move_signs_of_not_mem
    (inFront : descent.rest = token :: ahead)
    (notOperator : token.kind ∉ TokenKind.unaryOperators) (operators : List Token) :
    (Task.signs operators).move waiting descent =
      .ok (.primary, .signed operators :: waiting) descent :=
  bind_ok (accept?_eq_none inFront notOperator)

theorem move_primary_of_literal
    (inFront : descent.rest = token :: ahead) (isLiteral : token.kind ∈ TokenKind.literals) :
    Task.primary.move waiting descent =
      .ok (.answer (Ladder.literal token), waiting) (descent.past [token] []) :=
  bind_ok (accept?_eq_some inFront (TokenKind.plain_of_mem_literals isLiteral).goesOn isLiteral)

theorem move_primary_of_missing
    (inFront : descent.rest = token :: ahead) (notLiteral : token.kind ∉ TokenKind.literals)
    (notOpening : token.kind ≠ .leftParen) :
    Task.primary.move waiting descent = .ok (.answer .empty, waiting) descent := by
  refine (bind_ok (accept?_eq_none inFront notLiteral)).trans ?_
  refine (bind_ok (check_eq inFront .leftParen)).trans ?_
  rw [decide_eq_false notOpening]
  rfl

theorem move_primary_of_opening
    (inFront : descent.rest = token :: ahead) (isOpening : token.kind = .leftParen) :
    Task.primary.move waiting descent = .ok (.group token, waiting) (descent.past [token] []) := by
  have notLiteral : token.kind ∉ TokenKind.literals := by
    rw [isOpening]
    decide
  have goesOn : token.kind ≠ .endOfInput := by
    rw [isOpening]
    decide
  refine (bind_ok (accept?_eq_none inFront notLiteral)).trans ?_
  refine (bind_ok (check_eq inFront .leftParen)).trans ?_
  rw [decide_eq_true isOpening]
  exact bind_ok (advance_eq inFront goesOn)

theorem move_group_of_full (full : maxNesting ≤ descent.depth) (opening : Token) :
    (Task.group opening).move waiting descent =
      .ok (.skip 1, waiting) (descent.past [] [⟨opening.line, .nestedTooDeeply⟩]) := by
  refine (bind_ok (get_apply descent)).trans ?_
  rw [if_pos full]
  exact bind_ok (report_apply _ _ _)

theorem move_group_of_room (hasRoom : descent.depth < maxNesting) (opening : Token) :
    (Task.group opening).move waiting descent =
      .ok (.expression, .group :: waiting) descent.deeper := by
  refine (bind_ok (get_apply descent)).trans ?_
  rw [if_neg (Nat.not_le_of_lt hasRoom)]
  exact bind_ok (modify_apply _ _)

theorem move_skip_of_ends
    (inFront : descent.rest = token :: ahead) (isEnd : token.kind = .endOfInput) (opened : Nat) :
    (Task.skip (opened + 1)).move waiting descent = .ok (.answer .empty, waiting) descent := by
  refine (bind_ok (check_eq inFront .endOfInput)).trans ?_
  rw [decide_eq_true isEnd]
  rfl

theorem move_skip_of_ne
    (inFront : descent.rest = token :: ahead) (goesOn : token.kind ≠ .endOfInput) (opened : Nat) :
    (Task.skip (opened + 1)).move waiting descent =
      .ok (.skip (token.kind.openBehind (opened + 1)), waiting) (descent.past [token] []) := by
  refine (bind_ok (check_eq inFront .endOfInput)).trans ?_
  rw [decide_eq_false goesOn]
  exact bind_ok (advance_eq inFront goesOn)

/-- The depth goes down behind the inner expression, and the closing parenthesis is taken. -/
theorem move_answer_of_closing
    (inFront : descent.rest = token :: ahead) (isClosing : token.kind = .rightParen)
    (inner : Expr) :
    (Task.answer inner).move (.group :: waiting) descent.deeper =
      .ok (.answer (.grouping inner), waiting) (descent.past [token] []) := by
  have goesOn : token.kind ≠ .endOfInput := by
    rw [isClosing]
    decide
  have closes :
      Activation.group.resume inner descent.deeper =
        .ok (.answer (.grouping inner)) (descent.past [token] []) :=
    (bind_ok (modify_apply _ _)).trans (bind_ok (expect_eq_of_kind inFront goesOn isClosing _))
  exact bind_ok closes

theorem move_answer_of_unclosed
    (inFront : descent.rest = token :: ahead) (notClosing : token.kind ≠ .rightParen)
    (inner : Expr) :
    (Task.answer inner).move (.group :: waiting) descent.deeper =
      .ok (.answer (.grouping inner), waiting)
        (descent.past [] [⟨token.line, .unclosedGroup⟩]) := by
  have complains :
      Activation.group.resume inner descent.deeper =
        .ok (.answer (.grouping inner)) (descent.past [] [⟨token.line, .unclosedGroup⟩]) :=
    (bind_ok (modify_apply _ _)).trans (bind_ok (expect_eq_of_ne inFront notClosing _))
  exact bind_ok complains

end Moves

end Descent

/-! ## Where the moves lead -/

open Moment

/-- What a level leaves to be done behind the tokens that it reads. -/
def Level.outcome (operators : List Token) (expr : Expr) : Level → Task
  | chain precedence => .chain precedence expr
  | unary => .answer (operators.foldr .unary expr)
  | primary => .answer expr

section Leads

theorem past_opening_deeper
    (descent : Descent) (opening : Token) (tokens : List Token)
    (diagnostics : List Diagnostic) :
    (descent.past [opening] []).deeper.past tokens diagnostics =
      (descent.past (opening :: tokens) diagnostics).deeper := by
  change ((descent.past [opening] []).past tokens diagnostics).deeper = _
  rw [past_past]
  rfl

variable {descent : Descent} {next : Token} {later : List Token}

/-- A level is done where none of its operators follows. -/
theorem Level.leads_of_not_mem
    {level : Level} (inFront : descent.rest = next :: later)
    (stops : next.kind ∉ level.operators) (expr : Expr) (waiting : List Activation) :
    Leads ⟨descent, level.outcome [] expr, waiting⟩ ⟨descent, .answer expr, waiting⟩ := by
  cases level with
  | chain precedence => exact .move (move_chain_of_not_mem inFront stops expr) (.refl _)
  | unary | primary => exact .refl _

/-- A token that does not end the input is skipped. -/
theorem leads_skip_cons
    {opened : Nat} {token : Token} {tokens : List Token} {waiting : List Activation}
    (inFront : descent.rest = token :: tokens ++ next :: later)
    (goesOn : token.kind ≠ .endOfInput)
    (skipped : Leads
      ⟨descent.past [token] [], .skip (token.kind.openBehind (opened + 1)), waiting⟩
      ⟨(descent.past [token] []).past tokens [], .answer .empty, waiting⟩) :
    Leads ⟨descent, .skip (opened + 1), waiting⟩
      ⟨descent.past (token :: tokens) [], .answer .empty, waiting⟩ := by
  rw [past_past] at skipped
  exact .move (move_skip_of_ne inFront goesOn opened) skipped

theorem Skips.leads
    {opened : Nat} {tokens : List Token} (skips : Skips opened tokens next)
    (ahead : descent.rest = tokens ++ next :: later) (waiting : List Activation) :
    Leads ⟨descent, .skip opened, waiting⟩
      ⟨descent.past tokens [], .answer .empty, waiting⟩ := by
  induction skips generalizing descent with
  | closed =>
      rw [past_nil]
      exact .move rfl (.refl _)
  | ending isEnd =>
      rw [past_nil]
      exact .move (move_skip_of_ends ahead isEnd _) (.refl _)
  | opening isOpening _ ih =>
      refine leads_skip_cons ahead (by rw [isOpening]; decide) ?_
      rw [isOpening]
      exact ih (rest_past_singleton ahead [])
  | closing isClosing _ ih =>
      refine leads_skip_cons ahead (by rw [isClosing]; decide) ?_
      rw [isClosing]
      exact ih (rest_past_singleton ahead [])
  | plain plain _ ih =>
      refine leads_skip_cons ahead plain.goesOn ?_
      rw [TokenKind.openBehind_eq _ plain.notOpening plain.notClosing]
      exact ih (rest_past_singleton ahead [])

/-- An expression is answered where its chain is done. -/
theorem leads_expression
    {tokens : List Token} {expr : Expr} {diagnostics : List Diagnostic}
    (ahead : descent.rest = tokens ++ next :: later)
    (stops : next.kind ∉ Level.expression.operators)
    (chain : ∀ waiting, Leads ⟨descent, Level.expression.task [], waiting⟩
      ⟨descent.past tokens diagnostics, Level.expression.outcome [] expr, waiting⟩)
    (waiting : List Activation) :
    Leads ⟨descent, .expression, waiting⟩
      ⟨descent.past tokens diagnostics, .answer expr, waiting⟩ := by
  have inFront := rest_past ahead diagnostics
  refine .move rfl ((chain (.expression :: waiting)).trans ?_)
  exact (Level.leads_of_not_mem inFront stops expr _).trans (.move rfl (.refl _))

/-- Where there is room a group is entered, and its inner expression is read. -/
theorem leads_inner
    {opening : Token} {tokens : List Token} {inner : Expr} {diagnostics : List Diagnostic}
    (ahead : descent.rest = opening :: (tokens ++ next :: later))
    (isOpening : opening.kind = .leftParen) (hasRoom : descent.depth < maxNesting)
    (stops : next.kind ∉ Level.expression.operators)
    (chain : ∀ waiting, Leads
      ⟨(descent.past [opening] []).deeper, Level.expression.task [], waiting⟩
      ⟨(descent.past [opening] []).deeper.past tokens diagnostics,
        Level.expression.outcome [] inner, waiting⟩)
    (waiting : List Activation) :
    Leads ⟨descent, .primary, waiting⟩
      ⟨(descent.past (opening :: tokens) diagnostics).deeper, .answer inner,
        .group :: waiting⟩ := by
  have inside : (descent.past [opening] []).deeper.rest = tokens ++ next :: later :=
    rest_past_singleton ahead []
  have behindHasRoom : (descent.past [opening] []).depth < maxNesting := hasRoom
  rw [← past_opening_deeper]
  refine .move (move_primary_of_opening ahead isOpening) ?_
  exact .move (move_group_of_room behindHasRoom opening) (leads_expression inside stops chain _)

/-- In front of tokens that a level reads, the moves lead behind them, and nothing else waits
than before. -/
theorem Reads.leads
    {level : Level} {room : Nat} {tokens : List Token} {expr : Expr}
    {diagnostics : List Diagnostic}
    (reads : Reads level room tokens next expr diagnostics)
    (ahead : descent.rest = tokens ++ next :: later)
    (within : descent.depth + room = maxNesting)
    (operators : List Token) (waiting : List Activation) :
    Leads ⟨descent, level.task operators, waiting⟩
      ⟨descent.past tokens diagnostics, level.outcome operators expr, waiting⟩ := by
  induction reads generalizing descent later operators waiting with
  | literal isLiteral => exact .move (move_primary_of_literal ahead isLiteral) (.refl _)
  | missing notLiteral notOpening =>
      rw [past_nil]
      exact .move (move_primary_of_missing ahead notLiteral notOpening) (.refl _)
  | @closed room opening closing next tokens inner diagnostics isOpening _ isClosing ih =>
      have whole : descent.rest = opening :: (tokens ++ closing :: next :: later) := by
        simpa using ahead
      have stops : closing.kind ∉ Level.expression.operators := by
        rw [isClosing]
        decide
      have inside : (descent.past [opening] []).deeper.rest = tokens ++ closing :: next :: later :=
        rest_past_singleton whole []
      have chain := ih inside (by simp only [deeper, past]; omega) []
      refine (leads_inner whole isOpening (by omega) stops chain waiting).trans ?_
      refine .move (move_answer_of_closing (rest_past whole diagnostics) isClosing _) ?_
      rw [past_past]
      simpa [Level.outcome] using Leads.refl _
  | @unclosed room opening next tokens inner diagnostics isOpening _ stops notClosing ih =>
      have inside : (descent.past [opening] []).deeper.rest = tokens ++ next :: later :=
        rest_past_singleton ahead []
      have chain := ih inside (by simp only [deeper, past]; omega) []
      refine (leads_inner ahead isOpening (by omega) stops chain waiting).trans ?_
      refine .move (move_answer_of_unclosed (rest_past ahead diagnostics) notClosing _) ?_
      rw [past_past]
      simpa [Level.outcome] using Leads.refl _
  | @deep opening next tokens isOpening skips =>
      have full : maxNesting ≤ (descent.past [opening] []).depth := Nat.le_of_eq within.symm
      have closes :=
        skips.leads (rest_past_singleton ahead [⟨opening.line, .nestedTooDeeply⟩]) waiting
      rw [past_past] at closes
      refine .move (move_primary_of_opening ahead isOpening) (.move ?_ closes)
      refine (move_group_of_full full opening).trans ?_
      rw [past_past]
      rfl
  | @operand room next tokens expr diagnostics notOperator _ ih =>
      have first : ∃ rest, descent.rest = tokens.headD next :: rest := by
        cases tokens <;> exact ⟨_, ahead⟩
      obtain ⟨rest, inFront⟩ := first
      refine .move (move_signs_of_not_mem inFront notOperator operators) ?_
      exact (ih ahead within [] _).trans (.move rfl (.refl _))
  | @unary room operator next tokens right diagnostics isOperator _ ih =>
      refine .move (move_signs_of_mem ahead isOperator operators) ?_
      have later := ih (rest_past_singleton ahead []) within (operators ++ [operator]) waiting
      rw [past_past] at later
      simpa [Level.outcome, Level.task] using later
  | @single precedence room next tokens expr diagnostics _ stops ih =>
      refine .move rfl ((ih ahead within [] _).trans ?_)
      refine (Level.leads_of_not_mem (rest_past ahead diagnostics) stops expr _).trans ?_
      exact .move rfl (.refl _)
  | @binary precedence room operator next lefts rights left right leftDiagnostics
      rightDiagnostics _ isOperator _ stops leftIh rightIh =>
      have inFront : descent.rest = lefts ++ operator :: (rights ++ next :: later) := by
        simpa using ahead
      have atOperator := rest_past inFront leftDiagnostics
      have behind := rest_past_singleton atOperator []
      refine (leftIh inFront within operators waiting).trans ?_
      refine .move (move_chain_of_mem atOperator isOperator left) ?_
      refine (rightIh behind within [] _).trans ?_
      refine (Level.leads_of_not_mem (rest_past behind rightDiagnostics) stops right _).trans ?_
      refine .move rfl ?_
      simpa [Level.outcome] using Leads.refl _

end Leads

end LoxSyntax
