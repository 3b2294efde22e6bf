import LoxSyntax.Proofs.Descent.Run

/-!
# Running out of tokens

A list without a token that ends the input may end in the middle of an expression.  A level that
reads all that is left then looks for more and fails, unless it is a single operand whose last
token is the last of the list (`Reads.runs_out`).  A chain always looks for one more operator.
-/

namespace LoxSyntax

open Descent

namespace Descent

/-- The step looks beyond the end of the list. -/
def Fails {α : Type} (step : Step α) (descent : Descent) : Prop :=
  ∃ failed, step descent = .error .outOfTokens failed

section Fails

variable {α β : Type} {step : Step α} {descent next : Descent}

theorem Fails.bind
    (fails : Fails step descent)
    (continuation : α → Step β) :
    Fails (step >>= continuation) descent := by
  obtain ⟨failed, equality⟩ := fails
  refine ⟨failed, ?_⟩
  change EStateM.bind step continuation descent = _
  rw [EStateM.bind, equality]

/-- A step that succeeds hands a later failure on. -/
theorem fails_bind
    {continuation : α → Step β} {answer : α}
    (succeeds : step descent = .ok answer next)
    (fails : Fails (continuation answer) next) :
    Fails (step >>= continuation) descent := by
  obtain ⟨failed, equality⟩ := fails
  exact ⟨failed, (bind_ok succeeds).trans equality⟩

theorem Fails.map
    (fails : Fails step descent)
    (change : α → β) :
    Fails (EStateM.map change step) descent := by
  obtain ⟨failed, equality⟩ := fails
  refine ⟨failed, ?_⟩
  rw [EStateM.map, equality]

theorem Fails.of_eq
    {other : Step α}
    (fails : Fails other next)
    (equality : step descent = other next) :
    Fails step descent := by
  obtain ⟨failed, otherFails⟩ := fails
  exact ⟨failed, equality.trans otherFails⟩

theorem accept?_fails
    (none : descent.rest = [])
    (kinds : List TokenKind) :
    Fails (accept? kinds) descent := by
  refine Fails.bind ⟨descent, ?_⟩ _
  rw [current, none]

end Fails

end Descent

/-- A step has nothing left to read: it fails, or it took the last token. -/
def Exhausts (step : Step Expr) (descent : Descent) : Prop :=
  Fails step descent ∨
    ∃ expr behind, step descent = .ok expr behind ∧ behind.rest = [] ∧ descent.rest ≠ []

/-- The rest of a skipped group may be closed by the last token of the list. -/
theorem Skips.runs_out
    {opened : Nat} {tokens : List Token} {next : Token}
    (skips : Skips opened tokens next)
    (descent : Descent) (taken : List Token) :
    (∃ failed, closeGroups descent opened taken tokens = .error .outOfTokens failed) ∨
      ∃ behind, closeGroups descent opened taken tokens = .ok () behind ∧ behind.rest = [] := by
  induction skips generalizing taken with
  | closed => exact Or.inr ⟨_, rfl, rfl⟩
  | ending => exact Or.inl ⟨_, rfl⟩
  | opening isOpening _ ih =>
      simp only [closeGroups, isOpening]
      exact ih _
  | closing isClosing _ ih =>
      simp only [closeGroups, isClosing]
      exact ih _
  | plain plain _ ih =>
      obtain ⟨notOpening, notClosing, goesOn⟩ := plain
      simp only [closeGroups]
      exact ih _

theorem skipDeepGroup_exhausts
    (opening : Token) {next : Token} {descent : Descent} {tokens : List Token}
    (ahead : descent.rest = tokens)
    (skips : Skips 1 tokens next) :
    Fails (skipDeepGroup opening) descent ∨
      ∃ behind, skipDeepGroup opening descent = .ok .empty behind ∧ behind.rest = [] := by
  have reported := report_apply opening.line .nestedTooDeeply descent
  have inFront :
      (descent.past [] [⟨opening.line, .nestedTooDeeply⟩]).rest = tokens :=
    ahead
  have skipped :
      skipGroup (descent.past [] [⟨opening.line, .nestedTooDeeply⟩]) =
        closeGroups (descent.past [] [⟨opening.line, .nestedTooDeeply⟩]) 1
          (descent.past [] [⟨opening.line, .nestedTooDeeply⟩]).taken tokens := by
    rw [skipGroup, inFront]
  rcases skips.runs_out (descent.past [] [⟨opening.line, .nestedTooDeeply⟩])
      (descent.past [] [⟨opening.line, .nestedTooDeeply⟩]).taken with
    ⟨failed, equality⟩ | ⟨behind, equality, none⟩
  · left
    exact fails_bind reported (Fails.bind ⟨failed, skipped.trans equality⟩ _)
  · right
    refine ⟨behind, ?_, none⟩
    rw [skipDeepGroup, bind_ok reported, bind_ok (skipped.trans equality)]
    rfl

theorem groupWithin_fails
    {room : Nat} {opening : Token} {descent : Descent}
    (fails : Fails (Level.expression.step (groupWithin room)) descent.deeper) :
    Fails (groupWithin (room + 1) opening) descent := by
  rw [groupWithin_succ]
  exact fails_bind (modify_apply _ descent) (fails.bind _)

section Chain

variable {group : Token → Step Expr} {precedence : Precedence} {descent : Descent}

theorem Level.resume_fails
    (none : descent.rest = [])
    (budget : Nat) (expr : Expr) :
    Fails ((Level.chain precedence).resume group (budget + 1) expr) descent := by
  rw [Level.resume, Ladder.chain]
  exact (accept?_fails none _).bind _

theorem Level.resume_fails_of_mem
    {token : Token} {later : List Token}
    (ahead : descent.rest = token :: later)
    (isOperator : token.kind ∈ precedence.operators)
    (fails : Fails (precedence.operand.step group) (descent.past [token] []))
    (budget : Nat) (left : Expr) :
    Fails ((Level.chain precedence).resume group (budget + 1) left) descent := by
  have goesOn := (Precedence.plain_of_mem isOperator).goesOn
  rw [Level.resume, Ladder.chain]
  exact fails_bind (accept?_eq_some ahead goesOn isOperator) (fails.bind _)

/-- A chain goes on looking for operators behind the last operand. -/
theorem Level.step_chain_fails
    (exhausts : Exhausts (precedence.operand.step group) descent) :
    Fails ((Level.chain precedence).step group) descent := by
  rcases exhausts with fails | ⟨first, behind, reads, none, _⟩
  · rw [Level.step_chain]
    exact fails.bind _
  · exact (Level.resume_fails none _ _).of_eq (Level.step_chain_eq reads)

end Chain

/-- What a level does that reads all that is left. -/
def Level.RunsOut (group : Token → Step Expr) (descent : Descent) : Level → Prop
  | chain precedence => Fails ((chain precedence).step group) descent
  | unary => Exhausts (unary.step group) descent
  | primary => Exhausts (primary.step group) descent

theorem Level.RunsOut.exhausts
    {group : Token → Step Expr} {descent : Descent} {level : Level}
    (runsOut : level.RunsOut group descent) :
    Exhausts (level.step group) descent := by
  cases level with
  | chain precedence => exact Or.inl runsOut
  | unary => exact runsOut
  | primary => exact runsOut

/-- A level that reads all tokens of a list runs out of them. -/
theorem Reads.runs_out
    {level : Level} {room : Nat} {tokens : List Token} {next : Token} {expr : Expr}
    {diagnostics : List Diagnostic}
    (reads : Reads level room tokens next expr diagnostics)
    {descent : Descent}
    (ahead : descent.rest = tokens) :
    level.RunsOut (groupWithin room) descent := by
  induction reads generalizing descent with
  | literal isLiteral =>
      refine Or.inr ⟨_, _, primary_of_literal ahead isLiteral, rest_past_singleton ahead [], ?_⟩
      rw [ahead]
      exact List.cons_ne_nil _ _
  | missing => exact Or.inl ((accept?_fails ahead _).bind _)
  | @closed room opening closing next tokens inner diagnostics isOpening reads isClosing _ =>
      have whole : descent.rest = opening :: (tokens ++ closing :: []) := ahead
      have inFront : (descent.past [opening] []).deeper.rest = tokens ++ closing :: [] :=
        rest_past_singleton whole []
      have stops : closing.kind ∉ Level.expression.operators := by
        rw [isClosing]
        decide
      have inside := (reads.level_resumes inFront).step_eq (rest_past inFront diagnostics) stops
      have enters := congrFun (groupWithin_succ room opening) (descent.past [opening] [])
      have taken := primary_of_closed whole isOpening isClosing enters inside
      refine Or.inr ⟨.grouping inner, _, taken, ?_, ?_⟩
      · simp [past, ahead]
      · simp [ahead]
  | @unclosed room opening next tokens inner diagnostics isOpening _ _ _ ih =>
      have inFront : (descent.past [opening] []).rest = tokens := rest_past_singleton ahead []
      have fails : Fails (Level.expression.step (groupWithin room))
          (descent.past [opening] []).deeper :=
        ih inFront
      exact Or.inl ((groupWithin_fails fails).of_eq (primary_of_opening ahead isOpening))
  | @deep opening next tokens isOpening skips =>
      have inFront : (descent.past [opening] []).rest = tokens := rest_past_singleton ahead []
      have group :
          Ladder.primary (groupWithin 0) descent =
            skipDeepGroup opening (descent.past [opening] []) :=
        primary_of_opening ahead isOpening
      rcases skipDeepGroup_exhausts opening inFront skips with
        fails | ⟨behind, skipped, none⟩
      · exact Or.inl (fails.of_eq group)
      · refine Or.inr ⟨.empty, behind, group.trans skipped, none, ?_⟩
        rw [ahead]
        exact List.cons_ne_nil _ _
  | @operand room next tokens expr diagnostics notOperator _ ih =>
      have none : signs descent.rest = [] := by
        rw [ahead]
        cases tokens with
        | nil => rfl
        | cons token tokens =>
            simp only [List.headD_cons] at notOperator
            simp [signs, notOperator]
      have same :
          Ladder.unary (groupWithin room) descent = Ladder.primary (groupWithin room) descent :=
        unary_of_signs_nil none
      rcases ih ahead with fails | ⟨expr, behind, reads, done⟩
      · exact Or.inl (fails.of_eq same)
      · exact Or.inr ⟨expr, behind, same.trans reads, done⟩
  | @unary room operator next tokens right diagnostics isOperator _ ih =>
      have step :
          Level.unary.step (groupWithin room) descent =
            EStateM.map (.unary operator) (Level.unary.step (groupWithin room))
              (descent.past [operator] []) :=
        unary_of_operator ahead isOperator
      rcases ih (rest_past_singleton ahead []) with fails | ⟨right, behind, reads, none, _⟩
      · exact Or.inl ((fails.map (.unary operator)).of_eq step)
      · refine Or.inr ⟨.unary operator right, behind, ?_, none, ?_⟩
        · refine step.trans ?_
          rw [EStateM.map, reads]
        · rw [ahead]
          exact List.cons_ne_nil _ _
  | single _ _ ih => exact Level.step_chain_fails (ih ahead).exhausts
  | @binary precedence room operator next lefts rights left right leftDiagnostics
      rightDiagnostics leftReads isOperator _ _ _ rightIh =>
      obtain ⟨budget, enough, resumes⟩ := leftReads.level_resumes ahead
      have atOperator := rest_past ahead leftDiagnostics
      have behind := rest_past_singleton atOperator []
      rw [atOperator, List.length_cons] at enough
      obtain ⟨budget, rfl⟩ := Nat.exists_eq_add_of_le' (Nat.le_of_add_left_le enough)
      refine Fails.of_eq ?_ resumes
      rcases (rightIh behind).exhausts with fails | ⟨right, last, reads, none, some⟩
      · exact Level.resume_fails_of_mem atOperator isOperator fails budget left
      · -- The operand took a token, so the budget allows for one more look.
        have taken : rights ≠ [] := by
          rw [← behind]
          exact some
        have positive := List.length_pos_iff.2 taken
        obtain ⟨budget, rfl⟩ := Nat.exists_eq_add_of_le' (show 1 ≤ budget by omega)
        exact (Level.resume_fails none budget _).of_eq
          (Level.resume_of_mem atOperator isOperator reads _)

end LoxSyntax
