import LoxSyntax.Proofs.Descent.Reads
import LoxSyntax.Proofs.Descent.Step

/-!
# The ladder reads what its levels say

Each level of the precedence ladder, run in front of tokens that `Reads` accounts for, answers
with the tree of the reading and moves behind the tokens (`Reads.level_resumes`).  Since every
list that ends can be read, this determines what the ladder does on all of them
(`exists_parses`, `Parses.parse_eq`).
-/

namespace LoxSyntax

open Descent

/-- A level of the ladder, given a way to read a group. -/
def Level.step (group : Token → Step Expr) : Level → Step Expr
  | chain .equality => Ladder.equality group
  | chain .comparison => Ladder.comparison group
  | chain .term => Ladder.term group
  | chain .factor => Ladder.factor group
  | unary => Ladder.unary group
  | primary => Ladder.primary group

theorem Level.step_chain
    (group : Token → Step Expr) (precedence : Precedence) :
    (Level.chain precedence).step group =
      Ladder.leftAssociative precedence.operators (precedence.operand.step group) := by
  cases precedence <;> rfl

theorem Skips.run
    {opened : Nat} {tokens : List Token} {next : Token}
    (skips : Skips opened tokens next)
    (descent : Descent) (taken later : List Token) :
    closeGroups descent opened taken (tokens ++ next :: later) =
      .ok ()
        { descent with
          taken := tokens.reverse ++ taken
          rest := next :: later } := by
  induction skips generalizing taken with
  | closed => simp [closeGroups]
  | ending isEnd => simp [closeGroups, isEnd]
  | opening isOpening _ ih => simp [closeGroups, isOpening, ih]
  | closing isClosing _ ih => simp [closeGroups, isClosing, ih]
  | plain plain _ ih =>
      obtain ⟨notOpening, notClosing, goesOn⟩ := plain
      simp [closeGroups, ih]

theorem skipGroup_eq
    {descent : Descent} {tokens later : List Token} {next : Token}
    (ahead : descent.rest = tokens ++ next :: later) (skips : Skips 1 tokens next) :
    skipGroup descent = .ok () (descent.past tokens []) := by
  rw [skipGroup, ahead, skips.run]
  simp [past, ahead]

section Primary

variable {group : Token → Step Expr} {descent : Descent} {token : Token} {later : List Token}

theorem primary_of_literal
    (ahead : descent.rest = token :: later) (isLiteral : token.kind ∈ TokenKind.literals) :
    Ladder.primary group descent = .ok (Ladder.literal token) (descent.past [token] []) := by
  have goesOn := (TokenKind.plain_of_mem_literals isLiteral).goesOn
  rw [Ladder.primary, bind_ok (accept?_eq_some ahead goesOn isLiteral)]
  rfl

theorem primary_of_missing
    (ahead : descent.rest = token :: later) (notLiteral : token.kind ∉ TokenKind.literals)
    (notOpening : token.kind ≠ .leftParen) :
    Ladder.primary group descent = .ok .empty descent := by
  rw [Ladder.primary, bind_ok (accept?_eq_none ahead notLiteral)]
  refine (bind_ok (check_eq ahead .leftParen)).trans ?_
  rw [decide_eq_false notOpening]
  rfl

theorem primary_of_opening
    (ahead : descent.rest = token :: later) (isOpening : token.kind = .leftParen) :
    Ladder.primary group descent = group token (descent.past [token] []) := by
  have notLiteral : token.kind ∉ TokenKind.literals := by
    rw [isOpening]
    decide
  have goesOn : token.kind ≠ .endOfInput := by
    rw [isOpening]
    decide
  rw [Ladder.primary, bind_ok (accept?_eq_none ahead notLiteral)]
  refine (bind_ok (check_eq ahead .leftParen)).trans ?_
  rw [decide_eq_true isOpening]
  exact bind_ok (advance_eq ahead goesOn)

/-- The prefix operators that a list of tokens begins with. -/
def signs (tokens : List Token) : List Token :=
  tokens.takeWhile fun token => token.kind ∈ TokenKind.unaryOperators

/-- All operators in front are taken before the operand that they apply to. -/
theorem unary_apply (group : Token → Step Expr) (descent : Descent) :
    Ladder.unary group descent =
      EStateM.map (fun operand => (signs descent.rest).foldr .unary operand)
        (Ladder.primary group) (descent.past (signs descent.rest) []) := by
  have taken :
      takeWhile TokenKind.unaryOperators descent =
        .ok (signs descent.rest) (descent.past (signs descent.rest) []) := by
    simp [takeWhile, past, signs]
  rw [Ladder.unary, bind_ok taken]
  rfl

theorem unary_of_operator
    (ahead : descent.rest = token :: later)
    (isOperator : token.kind ∈ TokenKind.unaryOperators) :
    Ladder.unary group descent =
      EStateM.map (.unary token) (Ladder.unary group) (descent.past [token] []) := by
  have behind : (descent.past [token] []).rest = later := rest_past_singleton ahead []
  have more : signs descent.rest = token :: signs later := by
    simp [signs, ahead, isOperator]
  simp only [EStateM.map, unary_apply, behind, more, past_past, List.singleton_append,
    List.append_nil, List.foldr_cons]
  split <;> rfl

theorem unary_of_signs_nil (none : signs descent.rest = []) :
    Ladder.unary group descent = Ladder.primary group descent := by
  simp only [EStateM.map, unary_apply, none, past_nil, List.foldr_nil]
  split <;> simp [*]

end Primary

theorem groupWithin_succ (room : Nat) (opening : Token) :
    groupWithin (room + 1) opening = readGroup (Level.expression.step (groupWithin room)) := by
  rw [groupWithin, expressionWithin_eq]
  rfl

/-- Behind the inner expression a group looks for its closing parenthesis. -/
theorem readGroup_eq
    {inner : Step Expr} {descent : Descent} {tokens : List Token} {expr : Expr}
    {diagnostics : List Diagnostic}
    (reads : inner descent.deeper = .ok expr (descent.deeper.past tokens diagnostics)) :
    readGroup inner descent =
      EStateM.map (fun _ => .grouping expr) (expect .rightParen .unclosedGroup)
        (descent.past tokens diagnostics) := by
  rw [readGroup]
  refine (bind_ok (modify_apply _ descent)).trans ?_
  refine (bind_ok reads).trans ?_
  exact bind_ok (modify_apply _ _)

theorem skipDeepGroup_eq
    {opening next : Token} {descent : Descent} {tokens later : List Token}
    (ahead : descent.rest = tokens ++ next :: later) (skips : Skips 1 tokens next) :
    skipDeepGroup opening descent =
      .ok .empty (descent.past tokens [⟨opening.line, .nestedTooDeeply⟩]) := by
  have reported :
      (descent.past [] [⟨opening.line, .nestedTooDeeply⟩]).rest = tokens ++ next :: later :=
    ahead
  rw [skipDeepGroup, bind_ok (report_apply _ _ descent), bind_ok (skipGroup_eq reported skips)]
  simp [pure_apply]

/-! ## Chains -/

/-- What is left to do at a level when the beginning of it has been read. -/
def Level.resume (group : Token → Step Expr) (budget : Nat) (expr : Expr) : Level → Step Expr
  | chain precedence =>
      Ladder.chain precedence.operators (precedence.operand.step group) budget expr
  | unary => pure expr
  | primary => pure expr

section Chain

variable {group : Token → Step Expr} {descent : Descent} {token : Token} {later : List Token}

theorem Level.resume_of_not_mem
    {level : Level}
    (ahead : descent.rest = token :: later) (stops : token.kind ∉ level.operators)
    (budget : Nat) (expr : Expr) :
    level.resume group budget expr descent = .ok expr descent := by
  cases level with
  | chain precedence =>
      cases budget with
      | zero => rfl
      | succ budget =>
          rw [Level.resume, Ladder.chain]
          exact bind_ok (accept?_eq_none ahead stops)
  | unary => rfl
  | primary => rfl

/-- An operator of the chain and its right operand are taken. -/
theorem Level.resume_of_mem
    {precedence : Precedence} {left right : Expr} {next : Descent}
    (ahead : descent.rest = token :: later) (isOperator : token.kind ∈ precedence.operators)
    (reads : precedence.operand.step group (descent.past [token] []) = .ok right next)
    (budget : Nat) :
    (Level.chain precedence).resume group (budget + 1) left descent =
      (Level.chain precedence).resume group budget (.binary left token right) next := by
  have goesOn := (Precedence.plain_of_mem isOperator).goesOn
  simp only [Level.resume]
  rw [Ladder.chain, bind_ok (accept?_eq_some ahead goesOn isOperator)]
  exact bind_ok reads

/-- A chain starts with its first operand.  The budget is larger than the number of tokens left. -/
theorem Level.step_chain_eq
    {precedence : Precedence} {first : Expr} {next : Descent}
    (reads : precedence.operand.step group descent = .ok first next) :
    (Level.chain precedence).step group descent =
      (Level.chain precedence).resume group (next.rest.length + 1) first next := by
  rw [Level.step_chain, Ladder.leftAssociative, bind_ok reads]
  exact bind_ok (get_apply next)

end Chain

/-- A level has come from one descent to another.  What is left to do is to go on with its chain,
with the tree so far on the left and a budget that covers the tokens left. -/
def Level.Resumes
    (group : Token → Step Expr) (level : Level) (descent : Descent) (expr : Expr)
    (behind : Descent) : Prop :=
  ∃ budget, behind.rest.length ≤ budget ∧
    level.step group descent = level.resume group budget expr behind

namespace Level.Resumes

variable {group : Token → Step Expr} {level : Level} {precedence : Precedence}
  {descent between behind : Descent} {token : Token} {later : List Token} {expr right : Expr}

theorem step_eq
    (resumes : level.Resumes group descent expr behind)
    (inFront : behind.rest = token :: later) (stops : token.kind ∉ level.operators) :
    level.step group descent = .ok expr behind := by
  obtain ⟨budget, _, equality⟩ := resumes
  rw [equality]
  exact Level.resume_of_not_mem inFront stops budget expr

theorem of_primary (reads : Ladder.primary group descent = .ok expr behind) :
    Level.primary.Resumes group descent expr behind :=
  ⟨behind.rest.length, Nat.le_refl _, reads⟩

theorem operand
    (resumes : Level.primary.Resumes group descent expr behind)
    (none : signs descent.rest = []) :
    Level.unary.Resumes group descent expr behind := by
  obtain ⟨budget, enough, primary⟩ := resumes
  exact ⟨budget, enough, (unary_of_signs_nil none).trans primary⟩

theorem signed
    (ahead : descent.rest = token :: later)
    (isOperator : token.kind ∈ TokenKind.unaryOperators)
    (resumes : Level.unary.Resumes group (descent.past [token] []) expr behind) :
    Level.unary.Resumes group descent (.unary token expr) behind := by
  obtain ⟨budget, enough, unary⟩ := resumes
  have operand : Ladder.unary group (descent.past [token] []) = .ok expr behind := unary
  refine ⟨budget, enough, (unary_of_operator ahead isOperator).trans ?_⟩
  rw [EStateM.map, operand]
  rfl

theorem first (reads : precedence.operand.step group descent = .ok expr behind) :
    (Level.chain precedence).Resumes group descent expr behind :=
  ⟨_, Nat.le_succ _, Level.step_chain_eq reads⟩

/-- The budget covers the operator, so that it goes down by one. -/
theorem joined
    (resumes : (Level.chain precedence).Resumes group descent expr between)
    (inFront : between.rest = token :: later) (isOperator : token.kind ∈ precedence.operators)
    (reads : precedence.operand.step group (between.past [token] []) = .ok right behind)
    (fewer : behind.rest.length ≤ later.length) :
    (Level.chain precedence).Resumes group descent (.binary expr token right) behind := by
  obtain ⟨budget, enough, equality⟩ := resumes
  rw [inFront, List.length_cons] at enough
  obtain ⟨budget, rfl⟩ := Nat.exists_eq_add_of_le' (Nat.le_of_add_left_le enough)
  refine ⟨budget, by omega, equality.trans ?_⟩
  exact Level.resume_of_mem inFront isOperator reads budget

end Level.Resumes

/-! ## Readings -/

section Groups

variable {group : Token → Step Expr} {inner : Step Expr} {descent : Descent}
  {opening next : Token} {tokens later : List Token} {expr : Expr}
  {diagnostics : List Diagnostic}

/-- A group is taken through its closing parenthesis, whatever stands behind it. -/
theorem primary_of_closed
    (ahead : descent.rest = opening :: (tokens ++ next :: later))
    (isOpening : opening.kind = .leftParen) (isClosing : next.kind = .rightParen)
    (enters : group opening (descent.past [opening] []) =
      readGroup inner (descent.past [opening] []))
    (reads : inner (descent.past [opening] []).deeper =
      .ok expr ((descent.past [opening] []).deeper.past tokens diagnostics)) :
    Ladder.primary group descent =
      .ok (.grouping expr) (descent.past (opening :: tokens ++ [next]) diagnostics) := by
  have goesOn : next.kind ≠ .endOfInput := by
    rw [isClosing]
    decide
  have inFront : (descent.past [opening] []).rest = tokens ++ next :: later :=
    rest_past_singleton ahead []
  refine (primary_of_opening ahead isOpening).trans (enters.trans ?_)
  refine (readGroup_eq reads).trans ?_
  rw [EStateM.map, expect_eq_of_kind (rest_past inFront diagnostics) goesOn isClosing,
    past_past, past_past]
  simp

/-- A group that is not closed is taken up to the token that should close it. -/
theorem primary_of_unclosed
    (ahead : descent.rest = opening :: (tokens ++ next :: later))
    (isOpening : opening.kind = .leftParen) (notClosing : next.kind ≠ .rightParen)
    (enters : group opening (descent.past [opening] []) =
      readGroup inner (descent.past [opening] []))
    (reads : inner (descent.past [opening] []).deeper =
      .ok expr ((descent.past [opening] []).deeper.past tokens diagnostics)) :
    Ladder.primary group descent =
      .ok (.grouping expr)
        (descent.past (opening :: tokens) (diagnostics ++ [⟨next.line, .unclosedGroup⟩])) := by
  have inFront : (descent.past [opening] []).rest = tokens ++ next :: later :=
    rest_past_singleton ahead []
  refine (primary_of_opening ahead isOpening).trans (enters.trans ?_)
  refine (readGroup_eq reads).trans ?_
  rw [EStateM.map, expect_eq_of_ne (rest_past inFront diagnostics) notClosing,
    past_past, past_past]
  simp

theorem primary_of_deep
    (ahead : descent.rest = opening :: (tokens ++ next :: later))
    (isOpening : opening.kind = .leftParen) (skips : Skips 1 tokens next)
    (enters : group opening (descent.past [opening] []) =
      skipDeepGroup opening (descent.past [opening] [])) :
    Ladder.primary group descent =
      .ok .empty (descent.past (opening :: tokens) [⟨opening.line, .nestedTooDeeply⟩]) := by
  refine (primary_of_opening ahead isOpening).trans (enters.trans ?_)
  refine (skipDeepGroup_eq (rest_past_singleton ahead []) skips).trans ?_
  rw [past_past]
  rfl

end Groups

theorem signs_eq_nil
    {tokens later : List Token} {next : Token}
    (notOperator : (tokens.headD next).kind ∉ TokenKind.unaryOperators) :
    signs (tokens ++ next :: later) = [] := by
  cases tokens with
  | nil => exact List.takeWhile_cons_of_neg (by simpa using notOperator)
  | cons token tokens => exact List.takeWhile_cons_of_neg (by simpa using notOperator)

/-- In front of tokens that a level reads, the ladder moves behind them and is left with their
tree. -/
theorem Reads.level_resumes
    {level : Level} {room : Nat} {tokens : List Token} {next : Token} {expr : Expr}
    {diagnostics : List Diagnostic}
    (reads : Reads level room tokens next expr diagnostics)
    {descent : Descent} {later : List Token}
    (ahead : descent.rest = tokens ++ next :: later) :
    level.Resumes (groupWithin room) descent expr (descent.past tokens diagnostics) := by
  induction reads generalizing descent later with
  | literal isLiteral => exact .of_primary (primary_of_literal ahead isLiteral)
  | missing notLiteral notOpening =>
      rw [past_nil]
      exact .of_primary (primary_of_missing ahead notLiteral notOpening)
  | @closed room opening closing next tokens inner diagnostics isOpening _ isClosing ih =>
      have whole : descent.rest = opening :: (tokens ++ closing :: next :: later) := by
        simpa using ahead
      have stops : closing.kind ∉ Level.expression.operators := by
        rw [isClosing]
        decide
      have inFront : (descent.past [opening] []).deeper.rest =
          tokens ++ closing :: next :: later :=
        rest_past_singleton whole []
      have inside := (ih inFront).step_eq (rest_past inFront diagnostics) stops
      have enters := congrFun (groupWithin_succ room opening) (descent.past [opening] [])
      exact .of_primary (primary_of_closed whole isOpening isClosing enters inside)
  | @unclosed room opening next tokens inner diagnostics isOpening _ stops notClosing ih =>
      have inFront : (descent.past [opening] []).deeper.rest = tokens ++ next :: later :=
        rest_past_singleton ahead []
      have inside := (ih inFront).step_eq (rest_past inFront diagnostics) stops
      have enters := congrFun (groupWithin_succ room opening) (descent.past [opening] [])
      exact .of_primary (primary_of_unclosed ahead isOpening notClosing enters inside)
  | deep isOpening skips => exact .of_primary (primary_of_deep ahead isOpening skips rfl)
  | operand notOperator _ ih =>
      refine (ih ahead).operand ?_
      rw [ahead]
      exact signs_eq_nil notOperator
  | unary isOperator _ ih =>
      have operand := ih (rest_past_singleton ahead [])
      rw [past_past] at operand
      exact .signed ahead isOperator operand
  | @single precedence room next tokens expr diagnostics _ stops ih =>
      exact .first ((ih ahead).step_eq (rest_past ahead diagnostics) stops)
  | @binary precedence room operator next lefts rights left right leftDiagnostics
      rightDiagnostics _ isOperator _ stops leftIh rightIh =>
      have inFront : descent.rest = lefts ++ operator :: (rights ++ next :: later) := by
        simpa using ahead
      have atOperator := rest_past inFront leftDiagnostics
      have behind := rest_past_singleton atOperator []
      have atNext := rest_past behind rightDiagnostics
      have rightReads := (rightIh behind).step_eq atNext stops
      have whole := (leftIh inFront).joined atOperator isOperator rightReads
        (by rw [atNext]; simp)
      simpa using whole

/-! ## Whole lists -/

/-- How a descent answers: with a tree, or with the tree and the diagnostics that reject it. -/
def verdict (expr : Expr) (diagnostics : List Diagnostic) : Except ParseError Expr :=
  if diagnostics.isEmpty then .ok expr else .error (.rejected diagnostics expr)

theorem verdict_eq_ok_iff {expr accepted : Expr} {diagnostics : List Diagnostic} :
    verdict expr diagnostics = .ok accepted ↔ diagnostics = [] ∧ expr = accepted := by
  cases diagnostics <;> simp [verdict]

theorem verdict_eq_error_iff {expr : Expr} {diagnostics : List Diagnostic} :
    verdict expr diagnostics = .error (.rejected diagnostics expr) ↔ diagnostics ≠ [] := by
  cases diagnostics <;> simp [verdict]

/-- The tree that an answer comes with, accepted or rejected. -/
def bestEffort? : Except ParseError Expr → Option Expr
  | .ok expr => some expr
  | .error (.rejected _ expr) => some expr
  | .error .outOfTokens => none

theorem bestEffort?_verdict (expr : Expr) (diagnostics : List Diagnostic) :
    bestEffort? (verdict expr diagnostics) = some expr := by
  rw [verdict]
  split <;> rfl

/-- The answer of a run is that of the whole parser. -/
theorem ofTokens_eq_of_parse
    {list : List Token} {answer : Except ParseError Expr} {descent : Descent}
    (run : parse (ofTokens list) = .ok answer descent) :
    Expr.ofTokens list = answer := by
  have same : parse.run (ofTokens list) = .ok answer descent := run
  rw [Expr.ofTokens, same]

instance decidableEqAnswer {ε α : Type} [DecidableEq ε] [DecidableEq α] :
    DecidableEq (Except ε α)
  | .ok left, .ok right => decidable_of_iff (left = right) (by simp)
  | .error left, .error right => decidable_of_iff (left = right) (by simp)
  | .ok _, .error _ => isFalse (by simp)
  | .error _, .ok _ => isFalse (by simp)

instance decidableEqRun {ε σ α : Type} [DecidableEq ε] [DecidableEq σ] [DecidableEq α] :
    DecidableEq (EStateM.Result ε σ α)
  | .ok left behindLeft, .ok right behindRight =>
      decidable_of_iff (left = right ∧ behindLeft = behindRight) (by simp)
  | .error left behindLeft, .error right behindRight =>
      decidable_of_iff (left = right ∧ behindLeft = behindRight) (by simp)
  | .ok _ _, .error _ _ => isFalse (by simp)
  | .error _ _, .ok _ _ => isFalse (by simp)

/-- `Parses list position next expr diagnostics` when an expression reads the tokens of `list`
in front of `position`, where `next` stands. -/
structure Parses (list : List Token) (position : Nat) (next : Token) (expr : Expr)
    (diagnostics : List Diagnostic) : Prop where
  atPosition : list[position]? = some next
  reads : Reads .expression maxNesting (list.take position) next expr diagnostics
  stops : next.kind ∉ Level.expression.operators

/-- What an expression reads in front of a token that it cannot take. -/
theorem Reads.parses
    {tokens : List Token} {next : Token} {expr : Expr} {diagnostics : List Diagnostic}
    (reads : Reads .expression maxNesting tokens next expr diagnostics)
    (stops : next.kind ∉ Level.expression.operators) (later : List Token) :
    Parses (tokens ++ next :: later) tokens.length next expr diagnostics := by
  refine ⟨by simp, ?_, stops⟩
  rw [List.take_left]
  exact reads

theorem exists_parses {list : List Token} (ended : Ended list) :
    ∃ position next expr diagnostics, Parses list position next expr diagnostics := by
  obtain ⟨tokens, next, later, expr, diagnostics, rfl, _, reads, stops⟩ :=
    exists_reads .expression maxNesting ended
  exact ⟨tokens.length, next, expr, diagnostics, reads.parses stops later⟩

namespace Parses

variable {list : List Token} {position : Nat} {next : Token} {expr : Expr}
  {diagnostics : List Diagnostic}

theorem eq_append (parses : Parses list position next expr diagnostics) :
    list = list.take position ++ next :: list.drop (position + 1) := by
  obtain ⟨inside, rfl⟩ := List.getElem?_eq_some_iff.1 parses.atPosition
  simp

/-- A fresh descent does what the reading says. -/
theorem parse_eq (parses : Parses list position next expr diagnostics) :
    parse (ofTokens list) =
      .ok (verdict expr diagnostics) ((ofTokens list).past (list.take position) diagnostics) := by
  have ahead : (ofTokens list).rest =
      list.take position ++ next :: list.drop (position + 1) :=
    parses.eq_append
  have reading :
      expression (ofTokens list) =
        .ok expr ((ofTokens list).past (list.take position) diagnostics) :=
    (bind_ok (get_apply _)).trans
      ((parses.reads.level_resumes ahead).step_eq (rest_past ahead _) parses.stops)
  rw [parse, bind_ok reading]
  exact bind_ok (get_apply _)

theorem position_past (parses : Parses list position next expr diagnostics) :
    ((ofTokens list).past (list.take position) diagnostics).position = position := by
  have inside : position < list.length :=
    (List.getElem?_eq_some_iff.1 parses.atPosition).1
  simp [Descent.position, past, ofTokens, Nat.le_of_lt inside]

theorem drop_past (parses : Parses list position next expr diagnostics) :
    ((ofTokens list).past (list.take position) diagnostics).rest = list.drop position := by
  have inside : position < list.length :=
    (List.getElem?_eq_some_iff.1 parses.atPosition).1
  simp [past, ofTokens, Nat.le_of_lt inside]

end Parses

end LoxSyntax
