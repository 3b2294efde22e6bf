import LoxSyntax.Proofs.Groups

/-!
# What is complained about

A descent complains about each group that is too deep when it opens, and about each group that
is still open where it stops.  The complaints of the second kind are all about the token in
front of which it stops: once a parenthesis is missing no chain of operands goes on, and every
group around fails at the same token (`stuck_of_step`).

`Reads.diagnostics_eq` says this of everything that a level reads.
-/

namespace LoxSyntax

namespace Groups

/-- The opening parentheses in front of which exactly `limit` groups are open, counting those
that are skipped. -/
def deepOpenings (limit : Nat) : Groups → List Token → List Token
  | _, [] => []
  | groups, token :: rest =>
      let later := deepOpenings limit (groups.step limit token.kind) rest
      if token.kind = .leftParen ∧ groups.opened + groups.skipped = limit then token :: later
      else later

variable {limit : Nat}

theorem deepOpenings_append (groups : Groups) (lefts rights : List Token) :
    groups.deepOpenings limit (lefts ++ rights) =
      groups.deepOpenings limit lefts ++
        (groups.behind limit lefts).deepOpenings limit rights := by
  induction lefts generalizing groups with
  | nil => rfl
  | cons token rest ih =>
      simp only [List.cons_append, deepOpenings, behind, ih]
      split <;> rfl

theorem deepOpenings_cons_of_plain
    {token : Token} (plain : token.kind.Plain) (groups : Groups) (rest : List Token) :
    groups.deepOpenings limit (token :: rest) = groups.deepOpenings limit rest := by
  simp [deepOpenings, plain.notOpening, step_of_plain plain]

theorem deepOpenings_cons_of_opening
    {opening : Token} {opened : Nat} (isOpening : opening.kind = .leftParen)
    (shallow : opened < limit) (rest : List Token) :
    deepOpenings limit ⟨opened, 0⟩ (opening :: rest) =
      deepOpenings limit ⟨opened + 1, 0⟩ rest := by
  simp [deepOpenings, step, isOpening, shallow, Nat.ne_of_lt shallow]

theorem deepOpenings_singleton_of_closing
    {closing : Token} (isClosing : closing.kind = .rightParen) (groups : Groups) :
    groups.deepOpenings limit [closing] = [] := by
  simp [deepOpenings, isClosing]

theorem opened_step_le
    {groups : Groups} (within : groups.opened ≤ limit) (kind : TokenKind) :
    (groups.step limit kind).opened ≤ limit := by
  unfold step
  split
  · split
    · exact Nat.succ_le_of_lt ‹_›
    · exact within
  · exact within
  · exact Nat.le_trans (Nat.sub_le _ _) within
  · exact within
  · exact within

/-- No more than `limit` groups are ever open without being skipped. -/
theorem opened_behind_le
    {groups : Groups} (within : groups.opened ≤ limit) (tokens : List Token) :
    (groups.behind limit tokens).opened ≤ limit := by
  induction tokens generalizing groups with
  | nil => exact within
  | cons token rest ih => exact ih (opened_step_le within token.kind)

end Groups

/-- Inside of a skipped group more than `limit` groups are open. -/
theorem Skips.deepOpenings
    {skipped : Nat} {tokens : List Token} {next : Token}
    (skips : Skips skipped tokens next) (limit : Nat) :
    Groups.deepOpenings limit ⟨limit, skipped⟩ tokens = [] := by
  induction skips with
  | closed => rfl
  | ending => rfl
  | opening isOpening _ ih =>
      simpa [Groups.deepOpenings, Groups.step, isOpening] using ih
  | closing isClosing _ ih =>
      simpa [Groups.deepOpenings, Groups.step, isClosing] using ih
  | plain plain _ ih =>
      rw [Groups.deepOpenings_cons_of_plain plain]
      exact ih

/-- First come the groups that are too deep, and then, in front of one and the same token, those
whose closing parenthesis is missing. -/
theorem Reads.diagnostics_eq
    {level : Level} {room : Nat} {tokens : List Token} {next : Token} {expr : Expr}
    {diagnostics : List Diagnostic}
    (reads : Reads level room tokens next expr diagnostics)
    {limit opened : Nat} (within : opened + room = limit) :
    diagnostics =
      (Groups.deepOpenings limit ⟨opened, 0⟩ tokens).map
          (fun opening => ⟨opening.line, .nestedTooDeeply⟩) ++
        List.replicate (unclosedGroups diagnostics) ⟨next.line, .unclosedGroup⟩ := by
  induction reads generalizing opened with
  | literal isLiteral =>
      have plain := TokenKind.plain_of_mem_literals isLiteral
      rw [Groups.deepOpenings_cons_of_plain plain]
      rfl
  | missing => simp [Groups.deepOpenings]
  | @closed room opening closing next tokens inner diagnostics isOpening reads isClosing ih =>
      have within : opened + 1 + room = limit := by omega
      have none := reads.unclosedGroups_eq_zero (Or.inl isClosing)
      have inside := ih within
      rw [none] at inside ⊢
      rw [List.cons_append, Groups.deepOpenings_cons_of_opening isOpening (by omega),
        Groups.deepOpenings_append, Groups.deepOpenings_singleton_of_closing isClosing,
        List.append_nil]
      exact inside
  | @unclosed room opening next tokens inner diagnostics isOpening _ _ _ ih =>
      have within : opened + 1 + room = limit := by omega
      have inside := ih within
      rw [Groups.deepOpenings_cons_of_opening isOpening (by omega), unclosedGroups_append,
        unclosedGroups_singleton, List.replicate_succ', ← List.append_assoc, ← inside]
  | @deep opening next tokens isOpening skips =>
      have full : opened = limit := within
      rw [full]
      simp [Groups.deepOpenings, Groups.step, isOpening, skips.deepOpenings, unclosedGroups]
  | operand _ _ ih => exact ih within
  | unary isOperator _ ih =>
      have plain := TokenKind.plain_of_mem_unaryOperators isOperator
      rw [Groups.deepOpenings_cons_of_plain plain]
      exact ih within
  | single _ _ ih => exact ih within
  | @binary precedence room operator next lefts rights left right leftDiagnostics
      rightDiagnostics leftReads isOperator _ _ leftIh rightIh =>
      have plain := Precedence.plain_of_mem isOperator
      have continues : operator.kind = .rightParen ∨
          ∃ precedence : Precedence, operator.kind ∈ precedence.operators :=
        Or.inr ⟨precedence, isOperator⟩
      -- The left side stops in front of an operator, so it complains about deep groups only.
      have none := leftReads.unclosedGroups_eq_zero continues
      have leftSide := leftIh within
      have rightSide := rightIh within
      rw [none, List.replicate_zero, List.append_nil] at leftSide
      rw [Groups.deepOpenings_append, leftReads.behind_eq within continues,
        Groups.deepOpenings_cons_of_plain plain, unclosedGroups_append, none, Nat.zero_add,
        List.map_append, List.append_assoc, ← leftSide, ← rightSide]

/-- A descent is stuck where no chain of operands goes on and every group that waits for its
closing parenthesis complains about the token in front, without taking it. -/
structure Stuck (descent : Descent) : Prop where
  noOperator : ∀ precedence : Precedence,
    Descent.accept? precedence.operators descent = .ok none descent
  noClosing : ∃ next later, descent.rest = next :: later ∧
    Descent.expect .rightParen .unclosedGroup descent =
      .ok () (descent.past [] [⟨next.line, .unclosedGroup⟩])

open Descent in
/-- A level that has complained about a missing parenthesis leaves the descent stuck. -/
theorem stuck_of_step
    {level : Level} {room : Nat} {descent behind : Descent} {expr : Expr}
    (ended : Ended descent.rest)
    (answers : level.step (groupWithin room) descent = .ok expr behind)
    (complains : unclosedGroups descent.diagnostics < unclosedGroups behind.diagnostics) :
    Stuck behind := by
  obtain ⟨tokens, next, later, read, diagnostics, ahead, _, reads, stops⟩ :=
    exists_reads level room ended
  rw [(reads.level_resumes ahead).step_eq (rest_past ahead _) stops] at answers
  injection answers with _ moved
  subst moved
  have unclosed : unclosedGroups diagnostics ≠ 0 := by
    simp only [past, unclosedGroups_append] at complains
    omega
  have inFront : (descent.past tokens diagnostics).rest = next :: later :=
    rest_past ahead diagnostics
  obtain ⟨notClosing, notOperator⟩ := reads.stuck_of_unclosed unclosed
  refine ⟨?_, next, later, inFront, expect_eq_of_ne inFront notClosing _⟩
  intro precedence
  exact accept?_eq_none inFront (notOperator precedence)

/-! ## Whole lists -/

/-- The messages of a descent that has taken some tokens and stands in front of `next`. -/
def messagesBehind (taken : List Token) (next : Token) : List String :=
  (Groups.deepOpenings 64 ⟨0, 0⟩ taken).map
      (fun opening =>
        "line " ++ Text.decimalText opening.line ++ ": expression nested too deeply") ++
    List.replicate (Groups.behind 64 ⟨0, 0⟩ taken).opened
      ("line " ++ Text.decimalText next.line ++ ": expecting ')'")

theorem message_nestedTooDeeply (line : Int) :
    Diagnostic.message ⟨line, .nestedTooDeeply⟩ =
      "line " ++ Text.decimalText line ++ ": expression nested too deeply" := by
  have joined :
      ": expression nested too deeply" = ": " ++ "expression nested too deeply" := by
    decide
  rw [joined, ← String.append_assoc]
  rfl

theorem message_unclosedGroup (line : Int) :
    Diagnostic.message ⟨line, .unclosedGroup⟩ =
      "line " ++ Text.decimalText line ++ ": expecting ')'" := by
  have joined : ": expecting ')'" = ": " ++ "expecting ')'" := by decide
  rw [joined, ← String.append_assoc]
  rfl

namespace Parses

open Descent

variable {list : List Token} {position : Nat} {next : Token} {expr : Expr}
  {diagnostics : List Diagnostic}

theorem unclosedGroups_eq (parses : Parses list position next expr diagnostics) :
    (Groups.behind 64 ⟨0, 0⟩ (list.take position)).opened = unclosedGroups diagnostics := by
  have within : 0 + maxNesting = 64 := rfl
  rw [(parses.reads.behind within).1, Nat.zero_add]

theorem messages_eq (parses : Parses list position next expr diagnostics) :
    diagnostics.map Diagnostic.message = messagesBehind (list.take position) next := by
  have within : 0 + maxNesting = 64 := rfl
  have shape := parses.reads.diagnostics_eq within
  rw [messagesBehind, parses.unclosedGroups_eq]
  refine (congrArg (List.map Diagnostic.message) shape).trans ?_
  simp only [List.map_append, List.map_map, List.map_replicate, Function.comp_def,
    message_nestedTooDeeply, message_unclosedGroup]

theorem diagnostics_eq_nil_iff (parses : Parses list position next expr diagnostics) :
    diagnostics = [] ↔
      Groups.deepOpenings 64 ⟨0, 0⟩ (list.take position) = [] ∧
        (Groups.behind 64 ⟨0, 0⟩ (list.take position)).opened = 0 := by
  have messages := parses.messages_eq
  constructor
  · rintro rfl
    simpa [messagesBehind] using messages
  · rintro ⟨noneDeep, noneOpen⟩
    simpa [messagesBehind, noneDeep, noneOpen] using messages

end Parses

open Descent in
/-- A fresh descent complains about each group that opens while 64 are open, then about each
group that is open where it stops, and about nothing else.  Its answer is an error if and only
if there is a complaint.  Once a level complains about a missing parenthesis, nothing more is
taken. -/
theorem Descent.exists_parse_messages
    {list : List Token} (ended : Ended list) :
    (∃ answer descent next expr,
      parse (ofTokens list) = .ok answer descent ∧
        list[descent.position]? = some next ∧
        let taken := list.take descent.position
        let deep := Groups.deepOpenings 64 ⟨0, 0⟩ taken
        let unclosed := (Groups.behind 64 ⟨0, 0⟩ taken).opened
        descent.diagnostics.map Diagnostic.message = messagesBehind taken next ∧
          unclosed ≤ 64 ∧
          (answer = .ok expr ↔ deep = [] ∧ unclosed = 0) ∧
          (answer = .error (.rejected descent.diagnostics expr) ↔ deep ≠ [] ∨ unclosed ≠ 0) ∧
          (ParseError.rejected descent.diagnostics expr).message =
            "\n".intercalate (messagesBehind taken next)) ∧
      ∀ {level : Level} {room : Nat} {descent behind : Descent} {expr : Expr},
        Ended descent.rest →
        level.step (groupWithin room) descent = .ok expr behind →
        unclosedGroups descent.diagnostics < unclosedGroups behind.diagnostics →
        Stuck behind := by
  refine ⟨?_, stuck_of_step⟩
  obtain ⟨position, next, expr, diagnostics, parses⟩ := exists_parses ended
  have messages := parses.messages_eq
  have clean := parses.diagnostics_eq_nil_iff
  refine ⟨_, _, next, expr, parses.parse_eq, ?_⟩
  rw [parses.position_past]
  refine ⟨parses.atPosition, messages, Groups.opened_behind_le (Nat.zero_le 64) _, ?_, ?_, ?_⟩
  · rw [verdict_eq_ok_iff, ← clean]
    simp
  · rw [← Decidable.not_and_iff_not_or_not, ← clean]
    exact verdict_eq_error_iff
  · rw [ParseError.message]
    exact congrArg _ messages

/-- The tokens of `(nil - (nil nil`, where the input ends on the second line. -/
def unclosedPair : List Token :=
  [.leftParen, .nilWord, .minus, .leftParen, .nilWord].map Token.bare ++
    [⟨.nilWord, none, .nil, 2⟩, ⟨.endOfInput, none, .nil, 3⟩]

open Descent in
/-- Both groups are complained about on the line of the token that no group can take. -/
theorem messages_unclosedPair :
    Ended unclosedPair ∧
      ∃ answer descent,
        parse (ofTokens unclosedPair) = .ok answer descent ∧
          descent.diagnostics.map Diagnostic.message =
            ["line 2: expecting ')'", "line 2: expecting ')'"] := by
  have ended : Ended unclosedPair := ⟨⟨.endOfInput, none, .nil, 3⟩, by decide, rfl⟩
  obtain ⟨answer, descent, next, expr, parses, inFront, messages, _⟩ :=
    (exists_parse_messages ended).1
  refine ⟨ended, answer, descent, parses, ?_⟩
  have stop : descent.position = 5 := by
    have run :
        parse (ofTokens unclosedPair) =
          .ok
            (.error (.rejected [⟨2, .unclosedGroup⟩, ⟨2, .unclosedGroup⟩]
              (.grouping
                (.binary (.literal .nil) (.bare .minus) (.grouping (.literal .nil))))))
            ⟨(unclosedPair.take 5).reverse, unclosedPair.drop 5, 0,
              [⟨2, .unclosedGroup⟩, ⟨2, .unclosedGroup⟩]⟩ := by
      decide +kernel
    rw [run] at parses
    injection parses with _ moved
    rw [← moved]
    rfl
  rw [stop] at inFront messages
  obtain rfl : next = ⟨.nilWord, none, .nil, 2⟩ := (Option.some.inj inFront).symm
  rw [messages]
  decide

end LoxSyntax
