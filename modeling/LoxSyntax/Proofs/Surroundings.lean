import LoxSyntax.Proofs.Descent.Activation
import LoxSyntax.Proofs.Substitution

/-!
# Surroundings

What is around a group that is too deep sees neither its tokens nor its diagnostic: it is read as
a context with one place for an operand, and whatever can be read as an operand at that place is
put into the context (`Reads.exists_surrounding`).
-/

namespace LoxSyntax

/-- An expression with one place for an operand. -/
inductive Context where
  | here
  | grouping (inner : Context)
  | unary (operator : Token) (inner : Context)
  | binaryLeft (inner : Context) (operator : Token) (right : Expr)
  | binaryRight (left : Expr) (operator : Token) (inner : Context)

namespace Context

/-- The expression with an operand in the place that is open. -/
def plug : Context → Expr → Expr
  | here, operand => operand
  | grouping inner, operand => .grouping (inner.plug operand)
  | unary operator inner, operand => .unary operator (inner.plug operand)
  | binaryLeft inner operator right, operand => .binary (inner.plug operand) operator right
  | binaryRight left operator inner, operand => .binary left operator (inner.plug operand)

end Context

theorem headD_append_cons {α : Type} (items : List α) (first : α) (rest : List α) (last : α) :
    (items ++ first :: rest).headD last = items.headD first := by
  cases items <;> rfl

/-! ## Surroundings -/

open Descent

/-- `Surrounds level room before after next context front back` when an operand that stands
between `before` and `after`, at the greatest depth, is put into `context`, with its diagnostics
between `front` and `back`. -/
structure Surrounds (level : Level) (room : Nat) (before after : List Token) (next : Token)
    (context : Context) (front back : List Diagnostic) : Prop where
  /-- Whatever can be read as an operand there is read as one. -/
  reads : ∀ {tokens : List Token} {operand : Expr} {diagnostics : List Diagnostic},
    ((tokens ++ after).headD next).kind ∉ TokenKind.unaryOperators →
    Reads .primary 0 tokens (after.headD next) operand diagnostics →
    Reads level room (before ++ (tokens ++ after)) next (context.plug operand)
      (front ++ diagnostics ++ back)
  /-- The moves lead to where an operand is read. -/
  reaches : ∀ {descent : Descent} {token : Token} {rest : List Token} (operators : List Token)
    (waiting : List Activation),
    descent.rest = before ++ token :: rest →
    token.kind ∉ TokenKind.unaryOperators →
    descent.depth + room = maxNesting →
    ∃ further,
      Moment.Leads ⟨descent, level.task operators, waiting⟩
        ⟨{ descent.past before front with depth := maxNesting }, .primary, further⟩

namespace Surrounds

variable {room : Nat} {before after : List Token} {next : Token} {context : Context}
  {front back : List Diagnostic}

theorem here (next : Token) : Surrounds .primary 0 [] [] next .here [] [] := by
  constructor
  · intro tokens operand diagnostics _ reads
    simpa [Context.plug] using reads
  · intro descent token rest operators waiting _ _ full
    refine ⟨waiting, ?_⟩
    have atLimit : { descent with depth := maxNesting } = descent := by
      rw [← full, Nat.add_zero]
    rw [past_nil, atLimit]
    exact .refl _

/-- The moves into a group. -/
theorem reaches_inside
    (surrounds : Surrounds .expression room before after next context front back)
    {opening token : Token} (isOpening : opening.kind = .leftParen)
    {descent : Descent} {rest : List Token} (waiting : List Activation)
    (ahead : descent.rest = opening :: before ++ token :: rest)
    (notOperator : token.kind ∉ TokenKind.unaryOperators)
    (within : descent.depth + (room + 1) = maxNesting) :
    ∃ further,
      Moment.Leads ⟨descent, .primary, waiting⟩
        ⟨{ descent.past (opening :: before) front with depth := maxNesting }, .primary,
          further⟩ := by
  have hasRoom : (descent.past [opening] []).depth < maxNesting := by
    change descent.depth < maxNesting
    omega
  have inside : (descent.past [opening] []).deeper.rest = before ++ token :: rest :=
    rest_past_singleton ahead []
  have deeper : (descent.past [opening] []).deeper.depth + room = maxNesting := by
    change descent.depth + 1 + room = maxNesting
    omega
  obtain ⟨further, leads⟩ :=
    surrounds.reaches [] (.expression :: .group :: waiting) inside notOperator deeper
  rw [past_opening_deeper] at leads
  refine ⟨further, .move (move_primary_of_opening ahead isOpening) ?_⟩
  exact .move (move_group_of_room hasRoom opening) (.move rfl leads)

theorem closed
    (surrounds : Surrounds .expression room before after next context front back)
    {opening : Token} (isOpening : opening.kind = .leftParen)
    (isClosing : next.kind = .rightParen) (behind : Token) :
    Surrounds .primary (room + 1) (opening :: before) (after ++ [next]) behind
      (.grouping context) front back := by
  constructor
  · intro tokens operand diagnostics notOperator reads
    rw [headD_append_cons] at reads
    rw [← List.append_assoc, headD_append_cons] at notOperator
    have whole : Reads .primary (room + 1) _ behind _ _ :=
      .closed isOpening (surrounds.reads notOperator reads) isClosing
    simpa [Context.plug] using whole
  · intro descent token rest operators waiting ahead notOperator within
    exact surrounds.reaches_inside isOpening waiting ahead notOperator within

theorem unclosed
    (surrounds : Surrounds .expression room before after next context front back)
    {opening : Token} (isOpening : opening.kind = .leftParen)
    (stops : next.kind ∉ Level.expression.operators)
    (notClosing : next.kind ≠ .rightParen) :
    Surrounds .primary (room + 1) (opening :: before) after next (.grouping context) front
      (back ++ [⟨next.line, .unclosedGroup⟩]) := by
  constructor
  · intro tokens operand diagnostics notOperator reads
    have whole :=
      Reads.unclosed isOpening (surrounds.reads notOperator reads) stops notClosing
    simpa [Context.plug] using whole
  · intro descent token rest operators waiting ahead notOperator within
    exact surrounds.reaches_inside isOpening waiting ahead notOperator within

theorem operand
    (surrounds : Surrounds .primary room before after next context front back)
    (notOperator : before = [] ∨ (before.headD next).kind ∉ TokenKind.unaryOperators) :
    Surrounds .unary room before after next context front back := by
  constructor
  · intro tokens operand diagnostics notInFront reads
    refine .operand ?_ (surrounds.reads notInFront reads)
    cases before with
    | nil => exact notInFront
    | cons first before => exact notOperator.resolve_left (List.cons_ne_nil _ _)
  · intro descent token rest operators waiting ahead notAtPlace within
    have inFront : ∃ first later, descent.rest = first :: later ∧
        first.kind ∉ TokenKind.unaryOperators := by
      cases before with
      | nil => exact ⟨token, rest, ahead, notAtPlace⟩
      | cons first before =>
          exact ⟨first, _, ahead, notOperator.resolve_left (List.cons_ne_nil _ _)⟩
    obtain ⟨first, later, isFirst, notFirst⟩ := inFront
    obtain ⟨further, leads⟩ :=
      surrounds.reaches [] (.signed operators :: waiting) ahead notAtPlace within
    exact ⟨further, .move (move_signs_of_not_mem isFirst notFirst operators) leads⟩

theorem unary
    (surrounds : Surrounds .unary room before after next context front back)
    {operator : Token} (isOperator : operator.kind ∈ TokenKind.unaryOperators) :
    Surrounds .unary room (operator :: before) after next (.unary operator context) front
      back := by
  constructor
  · intro tokens operand diagnostics notOperator reads
    exact .unary isOperator (surrounds.reads notOperator reads)
  · intro descent token rest operators waiting ahead notOperator within
    have behind := rest_past_singleton ahead []
    obtain ⟨further, leads⟩ :=
      surrounds.reaches (operators ++ [operator]) waiting behind notOperator within
    rw [past_past] at leads
    exact ⟨further, .move (move_signs_of_mem ahead isOperator operators) leads⟩

section Chain

variable {precedence : Precedence}

theorem single
    (surrounds : Surrounds precedence.operand room before after next context front back)
    (stops : next.kind ∉ precedence.operand.operators) :
    Surrounds (.chain precedence) room before after next context front back := by
  constructor
  · intro tokens operand diagnostics notOperator reads
    exact .single (surrounds.reads notOperator reads) stops
  · intro descent token rest operators waiting ahead notOperator within
    obtain ⟨further, leads⟩ :=
      surrounds.reaches [] (.first precedence :: waiting) ahead notOperator within
    exact ⟨further, .move rfl leads⟩

/-- The place is on the left of an operator. -/
theorem left
    {operator : Token}
    (surrounds : Surrounds (.chain precedence) room before after operator context front back)
    (isOperator : operator.kind ∈ precedence.operators)
    {rights : List Token} {behind : Token} {right : Expr} {diagnostics : List Diagnostic}
    (readsRight : Reads precedence.operand room rights behind right diagnostics)
    (stops : behind.kind ∉ precedence.operand.operators) :
    Surrounds (.chain precedence) room before (after ++ operator :: rights) behind
      (.binaryLeft context operator right) front (back ++ diagnostics) := by
  constructor
  · intro tokens operand others notOperator reads
    rw [headD_append_cons] at reads
    rw [← List.append_assoc, headD_append_cons] at notOperator
    have whole := Reads.binary (surrounds.reads notOperator reads) isOperator readsRight stops
    simpa [Context.plug] using whole
  · exact surrounds.reaches

/-- The place is on the right of an operator. -/
theorem right
    (surrounds : Surrounds precedence.operand room before after next context front back)
    (stops : next.kind ∉ precedence.operand.operators)
    {lefts : List Token} {operator : Token} {left : Expr} {diagnostics : List Diagnostic}
    (readsLeft : Reads (.chain precedence) room lefts operator left diagnostics)
    (isOperator : operator.kind ∈ precedence.operators) :
    Surrounds (.chain precedence) room (lefts ++ operator :: before) after next
      (.binaryRight left operator context) (diagnostics ++ front) back := by
  constructor
  · intro tokens operand others notOperator reads
    have whole := Reads.binary readsLeft isOperator (surrounds.reads notOperator reads) stops
    simpa [Context.plug] using whole
  · intro descent token rest operators waiting ahead notOperator within
    have inFront : descent.rest = lefts ++ operator :: (before ++ token :: rest) := by
      simpa using ahead
    have atOperator := rest_past inFront diagnostics
    have behind := rest_past_singleton atOperator []
    obtain ⟨further, leads⟩ :=
      surrounds.reaches [] (.right precedence left operator :: waiting) behind notOperator
        within
    refine ⟨further, (readsLeft.leads inFront within operators waiting).trans ?_⟩
    refine .move (move_chain_of_mem atOperator isOperator left) ?_
    simpa using leads

end Chain

end Surrounds

/-- A reading takes a group that is too deep as an empty operand, and what is around the group
does not depend on it. -/
theorem Reads.exists_surrounding
    {level : Level} {room : Nat} {tokens before rest : List Token} {opening next : Token}
    {expr : Expr} {diagnostics : List Diagnostic}
    (reads : Reads level room tokens next expr diagnostics)
    (split : tokens = before ++ opening :: rest)
    (isOpening : opening.kind = .leftParen)
    {limit opened : Nat}
    (within : opened + room = limit)
    (full : Groups.behind limit ⟨opened, 0⟩ before = ⟨limit, 0⟩) :
    ∃ skipped after context front back,
      rest = skipped ++ after ∧
        Skips 1 skipped (after.headD next) ∧
        expr = context.plug .empty ∧
        diagnostics = front ++ ⟨opening.line, .nestedTooDeeply⟩ :: back ∧
        Surrounds level room before after next context front back := by
  have different {other : Token} (notOpening : other.kind ≠ .leftParen) : other ≠ opening := by
    rintro rfl
    exact notOpening isOpening
  induction reads generalizing before rest opened with
  | @literal room first next isLiteral =>
      have plain := TokenKind.plain_of_mem_literals isLiteral
      obtain ⟨_, _, none⟩ := split_cons (different plain.notOpening) split
      simp at none
  | missing => simp at split
  | @closed room first last next tokens inner diagnostics isFirst _ isLast ih =>
      have notLast : last ≠ opening := different (by rw [isLast]; decide)
      cases before with
      | nil =>
          have atLimit : opened = limit := congrArg Groups.opened full
          omega
      | cons other before =>
          obtain ⟨rfl, later⟩ := List.cons.inj split
          obtain ⟨others, inside, rfl⟩ := split_concat notLast later
          rw [Groups.behind_cons_of_opening isFirst (by omega)] at full
          obtain ⟨skipped, after, context, front, back, rfl, skips, rfl, rfl, surrounds⟩ :=
            ih inside (by omega) full
          refine ⟨skipped, after ++ [last], .grouping context, front, back, ?_, ?_, rfl, rfl,
            surrounds.closed isFirst isLast next⟩
          · rw [List.append_assoc]
          · rw [headD_append_cons]
            exact skips
  | @unclosed room first next tokens inner diagnostics isFirst _ stops notClosing ih =>
      cases before with
      | nil =>
          have atLimit : opened = limit := congrArg Groups.opened full
          omega
      | cons other before =>
          obtain ⟨rfl, later⟩ := List.cons.inj split
          rw [Groups.behind_cons_of_opening isFirst (by omega)] at full
          obtain ⟨skipped, after, context, front, back, rfl, skips, rfl, rfl, surrounds⟩ :=
            ih later (by omega) full
          refine ⟨skipped, after, .grouping context, front, back ++ [_], rfl, skips, rfl, ?_,
            surrounds.unclosed isFirst stops notClosing⟩
          simp
  | @deep first next tokens isFirst skips =>
      cases before with
      | nil =>
          obtain ⟨rfl, rfl⟩ := List.cons.inj split
          exact ⟨tokens, [], .here, [], [], by simp, skips, rfl, rfl, .here next⟩
      | cons other before =>
          obtain ⟨rfl, later⟩ := List.cons.inj split
          have inside := skips.skipped_ne_zero later limit opened
          have atLimit : ¬ opened < limit := by omega
          have outside := congrArg Groups.skipped full
          simp [Groups.behind, Groups.step, isFirst, atLimit, inside] at outside
  | @operand room next tokens expr diagnostics notOperator _ ih =>
      obtain ⟨skipped, after, context, front, back, rfl, skips, rfl, rfl, surrounds⟩ :=
        ih split within full
      refine ⟨skipped, after, context, front, back, rfl, skips, rfl, rfl,
        surrounds.operand ?_⟩
      cases before with
      | nil => exact Or.inl rfl
      | cons first before =>
          rw [split] at notOperator
          exact Or.inr notOperator
  | @unary room operator next tokens right diagnostics isOperator _ ih =>
      have plain := TokenKind.plain_of_mem_unaryOperators isOperator
      obtain ⟨before, rfl, later⟩ := split_cons (different plain.notOpening) split
      rw [Groups.behind, Groups.step_of_plain plain] at full
      obtain ⟨skipped, after, context, front, back, rfl, skips, rfl, rfl, surrounds⟩ :=
        ih later within full
      exact ⟨skipped, after, .unary operator context, front, back, rfl, skips, rfl, rfl,
        surrounds.unary isOperator⟩
  | @single precedence room next tokens expr diagnostics _ stops ih =>
      obtain ⟨skipped, after, context, front, back, rfl, skips, rfl, rfl, surrounds⟩ :=
        ih split within full
      exact ⟨skipped, after, context, front, back, rfl, skips, rfl, rfl,
        surrounds.single stops⟩
  | @binary precedence room operator next lefts rights left right leftDiagnostics
      rightDiagnostics leftReads isOperator rightReads stops leftIh rightIh =>
      have plain := Precedence.plain_of_mem isOperator
      rcases split_append_cons (different plain.notOpening) split with
        ⟨others, rfl, later⟩ | ⟨others, earlier, rfl⟩
      · have closes := leftReads.behind_eq within (Or.inr ⟨precedence, isOperator⟩)
        rw [Groups.behind_append, closes, Groups.behind, Groups.step_of_plain plain] at full
        obtain ⟨skipped, after, context, front, back, rfl, skips, rfl, rfl, surrounds⟩ :=
          rightIh later within full
        refine ⟨skipped, after, .binaryRight left operator context, leftDiagnostics ++ front, back,
          rfl, skips, rfl, ?_, surrounds.right stops leftReads isOperator⟩
        rw [List.append_assoc]
      · obtain ⟨skipped, after, context, front, back, rfl, skips, rfl, rfl, surrounds⟩ :=
          leftIh earlier within full
        refine ⟨skipped, after ++ operator :: rights, .binaryLeft context operator right, front,
          back ++ rightDiagnostics, ?_, ?_, rfl, ?_,
          surrounds.left isOperator rightReads stops⟩
        · rw [List.append_assoc]
        · rw [headD_append_cons]
          exact skips
        · simp

end LoxSyntax
