import LoxSyntax.Proofs.Descent.Run

/-!
# The depth of a descent

A step that answers leaves the depth as it found it (`KeepsDepth`), single looks and whole levels
of the ladder alike: a group that is entered is left again, whatever goes wrong inside.

So the room for further groups can be told from the depth.  `expressionNested` does not count the
room but looks at the depth in front of each group, and it counts the expressions inside one
another against a budget.  Where the budget exceeds the room it reads like the ladder
(`agrees_expressionNested`): the budget is never used up.
-/

namespace LoxSyntax.Descent

/-- A step that answers has the same depth behind it. -/
def KeepsDepth {α : Type} (step : Step α) : Prop :=
  ∀ (descent : Descent) (answer : α) (behind : Descent),
    step descent = .ok answer behind → behind.depth = descent.depth

/-- What a sequence of steps does: the first one answers, and the others go on from there. -/
theorem exists_of_bind_ok
    {α β : Type} {step : Step α} {continuation : α → Step β} {descent behind : Descent}
    {answer : β}
    (succeeds : (step >>= continuation) descent = .ok answer behind) :
    ∃ first between,
      step descent = .ok first between ∧ continuation first between = .ok answer behind := by
  change EStateM.bind step continuation descent = _ at succeeds
  rw [EStateM.bind] at succeeds
  split at succeeds
  · exact ⟨_, _, by assumption, succeeds⟩
  · cases succeeds

namespace KeepsDepth

variable {α β : Type}

theorem of_state
    {step : Step α}
    (keeps : ∀ descent : Descent, ∃ answer behind,
      step descent = .ok answer behind ∧ behind.depth = descent.depth) :
    KeepsDepth step := by
  intro descent answer behind succeeds
  obtain ⟨_, _, equality, depth⟩ := keeps descent
  rw [succeeds] at equality
  injection equality with _ same
  rw [same]
  exact depth

theorem pure (answer : α) : KeepsDepth (Pure.pure answer : Step α) :=
  of_state fun descent => ⟨answer, descent, rfl, rfl⟩

theorem bind
    {step : Step α} {continuation : α → Step β} (first : KeepsDepth step)
    (others : ∀ answer, KeepsDepth (continuation answer)) :
    KeepsDepth (step >>= continuation) := by
  intro descent answer behind succeeds
  obtain ⟨_, between, reads, continues⟩ := exists_of_bind_ok succeeds
  exact (others _ _ _ _ continues).trans (first _ _ _ reads)

theorem map {step : Step α} (keeps : KeepsDepth step) (change : α → β) :
    KeepsDepth (change <$> step) := by
  intro descent answer behind succeeds
  change EStateM.map change step descent = _ at succeeds
  rw [EStateM.map] at succeeds
  split at succeeds
  · injection succeeds with _ same
    rw [← same]
    exact keeps _ _ _ (by assumption)
  · cases succeeds

end KeepsDepth

theorem keepsDepth_current : KeepsDepth current := by
  intro descent answer behind succeeds
  unfold current at succeeds
  split at succeeds
  · cases succeeds
    rfl
  · cases succeeds

theorem keepsDepth_previous : KeepsDepth previous := by
  intro descent answer behind succeeds
  unfold previous at succeeds
  split at succeeds
  · cases succeeds
    rfl
  · cases succeeds
    rfl
  · cases succeeds

theorem keepsDepth_check (kind : TokenKind) : KeepsDepth (check kind) :=
  keepsDepth_current.bind fun _ => .pure _

theorem keepsDepth_advance : KeepsDepth advance := by
  refine (keepsDepth_check .endOfInput).bind fun ended => ?_
  have takes : KeepsDepth (modify takeOne) :=
    .of_state fun descent => ⟨(), takeOne descent, rfl, rfl⟩
  cases ended
  · exact takes.bind fun _ => keepsDepth_previous
  · exact keepsDepth_previous

theorem keepsDepth_accept (kinds : List TokenKind) : KeepsDepth (accept? kinds) := by
  refine keepsDepth_current.bind fun token => ?_
  split
  · exact keepsDepth_advance.map some
  · exact .pure none

theorem keepsDepth_report (line : Int) (problem : Problem) : KeepsDepth (report line problem) :=
  .of_state fun descent => ⟨(), _, report_apply line problem descent, rfl⟩

theorem keepsDepth_expect (kind : TokenKind) (problem : Problem) :
    KeepsDepth (expect kind problem) := by
  refine keepsDepth_current.bind fun token => ?_
  split
  · exact keepsDepth_advance.map fun _ => ()
  · exact keepsDepth_report token.line problem

theorem depth_closeGroups
    {descent behind : Descent} {opened : Nat} {taken rest : List Token}
    (succeeds : closeGroups descent opened taken rest = .ok () behind) :
    behind.depth = descent.depth := by
  fun_induction closeGroups descent opened taken rest with
  | case1 | case3 =>
      cases succeeds
      rfl
  | case2 => cases succeeds
  | case4 _ _ _ _ _ ih | case5 _ _ _ _ _ ih | case6 _ _ _ _ _ _ _ ih => exact ih succeeds

theorem keepsDepth_skipDeepGroup (opening : Token) : KeepsDepth (skipDeepGroup opening) := by
  refine (keepsDepth_report opening.line .nestedTooDeeply).bind fun _ => ?_
  exact KeepsDepth.bind (fun _ _ _ => depth_closeGroups) fun _ => .pure _

/-- A group that is entered is left behind the inner expression. -/
theorem keepsDepth_readGroup {inner : Step Expr} (keeps : KeepsDepth inner) :
    KeepsDepth (readGroup inner) := by
  intro descent answer behind succeeds
  obtain ⟨_, inside, enters, succeeds⟩ := exists_of_bind_ok succeeds
  obtain ⟨expr, stopped, reads, succeeds⟩ := exists_of_bind_ok succeeds
  obtain ⟨_, outside, leaves, succeeds⟩ := exists_of_bind_ok succeeds
  obtain ⟨_, closed, expects, succeeds⟩ := exists_of_bind_ok succeeds
  have entered : inside = descent.deeper := by
    cases enters
    rfl
  have left : outside.depth = stopped.depth - 1 := by
    cases leaves
    rfl
  have done : behind = closed := by
    cases succeeds
    rfl
  have kept := keeps _ _ _ reads
  rw [entered] at kept
  rw [done, keepsDepth_expect _ _ _ _ _ expects, left, kept]
  exact Nat.add_sub_cancel ..

/-! ## The ladder at one depth -/

/-- Two steps do the same wherever the depth is the given one. -/
def Agrees {α : Type} (depth : Nat) (left right : Step α) : Prop :=
  ∀ descent : Descent, descent.depth = depth → left descent = right descent

section Agrees

variable {α β : Type} {depth : Nat}

theorem Agrees.refl (step : Step α) : Agrees depth step step :=
  fun _ _ => rfl

theorem Agrees.bind
    {left right : Step α} {leftContinuation rightContinuation : α → Step β}
    (first : Agrees depth left right) (keeps : KeepsDepth right)
    (others : ∀ answer, Agrees depth (leftContinuation answer) (rightContinuation answer)) :
    Agrees depth (left >>= leftContinuation) (right >>= rightContinuation) := by
  intro descent atDepth
  change EStateM.bind left leftContinuation descent =
    EStateM.bind right rightContinuation descent
  rw [EStateM.bind, EStateM.bind, first descent atDepth]
  cases reads : right descent with
  | ok answer behind => exact others answer behind ((keeps _ _ _ reads).trans atDepth)
  | error failure behind => rfl

end Agrees

theorem keepsDepth_chain
    {operators : List TokenKind} {operand : Step Expr} (keeps : KeepsDepth operand)
    (budget : Nat) (left : Expr) :
    KeepsDepth (Ladder.chain operators operand budget left) := by
  induction budget generalizing left with
  | zero => exact .pure left
  | succ budget ih =>
      refine (keepsDepth_accept operators).bind fun answer => ?_
      cases answer with
      | none => exact .pure left
      | some operator => exact keeps.bind fun right => ih _

theorem agrees_chain
    {depth : Nat} {operators : List TokenKind} {left right : Step Expr}
    (same : Agrees depth left right) (keeps : KeepsDepth right) (budget : Nat) (expr : Expr) :
    Agrees depth (Ladder.chain operators left budget expr)
      (Ladder.chain operators right budget expr) := by
  induction budget generalizing expr with
  | zero => exact .refl _
  | succ budget ih =>
      refine Agrees.bind (.refl _) (keepsDepth_accept operators) fun answer => ?_
      cases answer with
      | none => exact .refl _
      | some operator => exact same.bind keeps fun operand => ih _

theorem keepsDepth_get : KeepsDepth (get : Step Descent) :=
  .of_state fun descent => ⟨descent, descent, rfl, rfl⟩

theorem keepsDepth_leftAssociative
    {operand : Step Expr} (keeps : KeepsDepth operand) (operators : List TokenKind) :
    KeepsDepth (Ladder.leftAssociative operators operand) :=
  keeps.bind fun _ => keepsDepth_get.bind fun _ => keepsDepth_chain keeps _ _

theorem agrees_leftAssociative
    {depth : Nat} {left right : Step Expr} (same : Agrees depth left right)
    (keeps : KeepsDepth right) (operators : List TokenKind) :
    Agrees depth (Ladder.leftAssociative operators left)
      (Ladder.leftAssociative operators right) :=
  same.bind keeps fun _ =>
    (Agrees.refl _).bind keepsDepth_get fun _ => agrees_chain same keeps _ _

theorem keepsDepth_takeWhile (kinds : List TokenKind) : KeepsDepth (takeWhile kinds) :=
  .of_state fun _ => ⟨_, _, rfl, rfl⟩

section Levels

variable {depth : Nat} {left right : Token → Step Expr}

theorem keepsDepth_primary (keeps : ∀ opening, KeepsDepth (right opening)) :
    KeepsDepth (Ladder.primary right) := by
  refine (keepsDepth_accept _).bind fun answer => ?_
  cases answer with
  | some token => exact .pure _
  | none =>
      refine (keepsDepth_check _).bind fun opens => ?_
      split
      · exact keepsDepth_advance.bind keeps
      · exact .pure _

theorem agrees_primary (same : ∀ opening, Agrees depth (left opening) (right opening)) :
    Agrees depth (Ladder.primary left) (Ladder.primary right) := by
  refine Agrees.bind (.refl _) (keepsDepth_accept _) fun answer => ?_
  cases answer with
  | some token => exact .refl _
  | none =>
      refine Agrees.bind (.refl _) (keepsDepth_check _) fun opens => ?_
      split
      · exact (Agrees.refl _).bind keepsDepth_advance same
      · exact .refl _

/-- Every level of the ladder keeps the depth if groups do. -/
theorem keepsDepth_step (keeps : ∀ opening, KeepsDepth (right opening)) (level : Level) :
    KeepsDepth (level.step right) := by
  have unary : KeepsDepth (Ladder.unary right) :=
    (keepsDepth_takeWhile _).bind fun _ => (keepsDepth_primary keeps).bind fun _ => .pure _
  have factor := keepsDepth_leftAssociative unary TokenKind.factorOperators
  have term := keepsDepth_leftAssociative factor TokenKind.termOperators
  have comparison := keepsDepth_leftAssociative term TokenKind.comparisonOperators
  cases level with
  | primary => exact keepsDepth_primary keeps
  | unary => exact unary
  | chain precedence =>
      cases precedence with
      | factor => exact factor
      | term => exact term
      | comparison => exact comparison
      | equality => exact keepsDepth_leftAssociative comparison TokenKind.equalityOperators

/-- A level of the ladder asks for groups at its own depth only. -/
theorem agrees_step
    (same : ∀ opening, Agrees depth (left opening) (right opening))
    (keeps : ∀ opening, KeepsDepth (right opening)) (level : Level) :
    Agrees depth (level.step left) (level.step right) := by
  have unary : Agrees depth (Ladder.unary left) (Ladder.unary right) :=
    (Agrees.refl _).bind (keepsDepth_takeWhile _) fun _ =>
      (agrees_primary same).bind (keepsDepth_primary keeps) fun _ => .refl _
  have factor := agrees_leftAssociative unary (keepsDepth_step keeps .unary)
    TokenKind.factorOperators
  have term := agrees_leftAssociative factor (keepsDepth_step keeps (.chain .factor))
    TokenKind.termOperators
  have comparison := agrees_leftAssociative term (keepsDepth_step keeps (.chain .term))
    TokenKind.comparisonOperators
  cases level with
  | primary => exact agrees_primary same
  | unary => exact unary
  | chain precedence =>
      cases precedence with
      | factor => exact factor
      | term => exact term
      | comparison => exact comparison
      | equality =>
          exact agrees_leftAssociative comparison (keepsDepth_step keeps (.chain .comparison))
            TokenKind.equalityOperators

end Levels

theorem keepsDepth_groupWithin (room : Nat) (opening : Token) :
    KeepsDepth (groupWithin room opening) := by
  induction room generalizing opening with
  | zero => exact keepsDepth_skipDeepGroup opening
  | succ room ih =>
      refine keepsDepth_readGroup ?_
      rw [expressionWithin_eq]
      exact keepsDepth_step ih .expression

/-! ## Depth in place of room -/

/-- Reads the rest of a group, or skips it where as many groups are open as may be. -/
def groupAtDepth (inner : Step Expr) (opening : Token) : Step Expr := do
  let descent ← get
  if maxNesting ≤ descent.depth then skipDeepGroup opening else readGroup inner

/-- Reads an expression with at most `budget` expressions inside one another, this one included.
It fails where one more would be needed. -/
def expressionNested : (budget : Nat) → Step Expr
  | 0 => throw .outOfTokens
  | budget + 1 => Ladder.equality (groupAtDepth (expressionNested budget))

/-- Reads an expression like `parse`, with a budget for the expressions inside one another. -/
def parseNested (budget : Nat) : Step (Except ParseError Expr) := do
  let expr ← expressionNested budget
  let descent ← get
  return verdict expr descent.diagnostics

theorem agrees_readGroup
    {depth : Nat} {left right : Step Expr} (same : Agrees (depth + 1) left right) :
    Agrees depth (readGroup left) (readGroup right) := by
  intro descent atDepth
  have inside : left descent.deeper = right descent.deeper :=
    same descent.deeper (congrArg (· + 1) atDepth)
  refine (bind_ok (modify_apply _ descent)).trans ?_
  refine Eq.trans ?_ (bind_ok (modify_apply _ descent)).symm
  change EStateM.bind left _ descent.deeper = EStateM.bind right _ descent.deeper
  rw [EStateM.bind, EStateM.bind, inside]

theorem groupAtDepth_apply (inner : Step Expr) (opening : Token) (descent : Descent) :
    groupAtDepth inner opening descent =
      (if maxNesting ≤ descent.depth then skipDeepGroup opening else readGroup inner) descent :=
  bind_ok (get_apply descent)

/-- Where the depth leaves room for fewer groups than the budget, the budget is not used up. -/
theorem agrees_expressionNested
    {room budget : Nat} (fits : room ≤ maxNesting) (enough : room < budget) :
    Agrees (maxNesting - room) (expressionNested budget) (expressionWithin room) := by
  induction room generalizing budget with
  | zero =>
      obtain ⟨budget, rfl⟩ := Nat.exists_eq_add_one_of_ne_zero (Nat.ne_of_gt enough)
      rw [expressionWithin_eq]
      refine agrees_step (fun opening descent atDepth => ?_) (keepsDepth_groupWithin 0) .expression
      rw [groupAtDepth_apply, if_pos (by omega)]
      rfl
  | succ room ih =>
      have positive : budget ≠ 0 := Nat.ne_of_gt (Nat.zero_lt_of_lt enough)
      obtain ⟨budget, rfl⟩ := Nat.exists_eq_add_one_of_ne_zero positive
      have inner := ih (by omega) (Nat.lt_of_succ_lt_succ enough)
      rw [show maxNesting - room = maxNesting - (room + 1) + 1 by omega] at inner
      rw [expressionWithin_eq]
      refine agrees_step (fun opening descent atDepth => ?_) (keepsDepth_groupWithin _) .expression
      rw [groupAtDepth_apply, if_neg (by omega)]
      exact agrees_readGroup inner descent atDepth

/-- A budget for one expression more than groups may be open is enough for every list. -/
theorem parseNested_eq
    {budget : Nat} (enough : maxNesting < budget) (list : List Token) :
    parseNested budget (ofTokens list) = parse (ofTokens list) := by
  have same : Agrees 0 (expressionNested budget) (expressionWithin maxNesting) :=
    agrees_expressionNested (Nat.le_refl _) enough
  have ladder : expression (ofTokens list) = expressionWithin maxNesting (ofTokens list) := by
    rw [expressionWithin_eq]
    refine (bind_ok (get_apply (ofTokens list))).trans ?_
    simp only [ofTokens, Nat.sub_zero]
  change EStateM.bind (expressionNested budget) _ _ = EStateM.bind expression _ _
  rw [EStateM.bind, EStateM.bind, same _ rfl, ladder]
  rfl

end LoxSyntax.Descent
