import LoxSyntax.Proofs.Acceptance
import LoxSyntax.Proofs.Descent.Operations
import LoxSyntax.Proofs.Descent.Waiting

/-!
# Bounded nesting

Only groups take a descent deeper.  No more than `maxNesting` of them are open at any moment, so
the expressions inside one another are bounded, and so are the groups on a path of the tree, also
where parentheses are missing (`Reads.groupDepth_le`).

Operators nest without a bound: in front of an operand (`Derives.signed`), and in chains to the
left (`Derives.chained`).
-/

namespace LoxSyntax

open Descent

/-- The greatest number of groups on a path from the root of a tree. -/
def Tree.groupDepth {α : Type} : Tree α → Nat
  | literal _ => 0
  | grouping inner => inner.groupDepth + 1
  | unary _ right => right.groupDepth
  | binary left _ right => max left.groupDepth right.groupDepth
  | empty => 0
  | hole _ => 0

/-- Groups nest only where there is room for them. -/
theorem Reads.groupDepth_le
    {level : Level} {room : Nat} {tokens : List Token} {next : Token} {expr : Expr}
    {diagnostics : List Diagnostic}
    (reads : Reads level room tokens next expr diagnostics) :
    expr.groupDepth ≤ room := by
  induction reads with
  | literal | missing | deep => exact Nat.zero_le _
  | closed _ _ _ ih | unclosed _ _ _ _ ih => exact Nat.succ_le_succ ih
  | operand _ _ ih | unary _ _ ih | single _ _ ih => exact ih
  | binary _ _ _ _ leftIh rightIh => exact Nat.max_le.2 ⟨leftIh, rightIh⟩

namespace Level

theorem rank_injective {left right : Level} (equality : left.rank = right.rank) :
    left = right := by
  rcases left with (_ | _ | _ | _) | _ | _ <;> rcases right with (_ | _ | _ | _) | _ | _ <;>
    first | rfl | cases equality

theorem rank_expression_le (level : Level) : Level.expression.rank ≤ level.rank := by
  cases level with
  | chain precedence => cases precedence <;> decide
  | unary | primary => decide

end Level

namespace Derives

/-- What derives from the rule of a level derives from those of the weaker levels too. -/
theorem of_rank_le
    {weaker level : Level} {tokens : List Token} {expr : Expr}
    (derives : Derives level tokens expr) (rankLe : weaker.rank ≤ level.rank) :
    Derives weaker tokens expr := by
  induction gap : level.rank - weaker.rank generalizing weaker with
  | zero =>
      have same : weaker = level := by
        apply Level.rank_injective
        omega
      rw [same]
      exact derives
  | succ gap ih =>
      cases weaker with
      | chain precedence =>
          have chainRank : (Level.chain precedence).rank = precedence.rank := rfl
          have operandRank := Level.rank_operand precedence
          exact .single (ih (by omega) (by omega))
      | unary =>
          have primaryRank : Level.primary.rank = Level.unary.rank + 1 := rfl
          exact .operand (ih (by omega) (by omega))
      | primary =>
          have most : level.rank ≤ Level.primary.rank := level.rank_le
          omega

variable {operator : Token} {tokens : List Token} {expr : Expr}

/-- Any number of operators may stand in front of an operand. -/
theorem signed
    (isOperator : operator.kind ∈ TokenKind.unaryOperators)
    (operand : Derives .unary tokens expr) (count : Nat) :
    Derives .unary (List.replicate count operator ++ tokens)
      ((Tree.unary operator)^[count] expr) := by
  induction count with
  | zero => exact operand
  | succ count ih =>
      rw [Function.iterate_succ_apply']
      exact .unary isOperator ih

/-- A chain may have any number of operands. -/
theorem chained
    {precedence : Precedence} (isOperator : operator.kind ∈ precedence.operators)
    (operand : Derives precedence.operand tokens expr) (count : Nat) :
    Derives (.chain precedence)
      (tokens ++ (List.replicate count (operator :: tokens)).flatten)
      ((fun left => .binary left operator expr)^[count] expr) := by
  induction count with
  | zero =>
      simp only [List.replicate_zero, List.flatten_nil, List.append_nil]
      exact .single operand
  | succ count ih =>
      rw [Function.iterate_succ_apply', List.replicate_succ', List.flatten_concat,
        ← List.append_assoc]
      exact .binary ih isOperator operand

end Derives

/-- Where no group is opened none is open but those from before. -/
theorem deepest_eq
    {tokens : List Token} (flat : ∀ token ∈ tokens, token.kind ≠ .leftParen) (opened : Nat) :
    deepest opened tokens = opened := by
  induction tokens generalizing opened with
  | nil => rfl
  | cons token rest ih =>
      obtain ⟨notOpening, restFlat⟩ := List.forall_mem_cons.1 flat
      have notDeeper : token.kind.openBehind opened ≤ opened := by
        by_cases isClosing : token.kind = .rightParen
        · rw [isClosing]
          exact Nat.sub_le opened 1
        · exact Nat.le_of_eq (TokenKind.openBehind_eq opened notOpening isClosing)
      rw [deepest, ih restFlat]
      exact Nat.max_eq_left notDeeper

/-- What derives without groups is accepted in front of the end. -/
theorem Derives.exists_parse
    {level : Level} {tokens : List Token} {expr : Expr} (derives : Derives level tokens expr)
    (flat : ∀ token ∈ tokens, token.kind ≠ .leftParen) {last : Token}
    (isEnd : last.kind = .endOfInput) :
    ∃ descent, parse (ofTokens (tokens ++ [last])) = .ok (.ok expr) descent := by
  have stops (precedence : Precedence) : last.kind ∉ precedence.operators := by
    intro isOperator
    exact (Precedence.plain_of_mem isOperator).goesOn isEnd
  have within : nesting tokens ≤ maxNesting := by
    rw [nesting, deepest_eq flat]
    exact Nat.zero_le maxNesting
  have whole := derives.of_rank_le level.rank_expression_le
  have reads := whole.reads within fun precedence _ => stops precedence
  exact ⟨_, (reads.parses (stops .equality) []).parse_eq⟩

section Operators

variable {operator operand last : Token} (count : Nat)
  (isLiteral : operand.kind ∈ TokenKind.literals) (isEnd : last.kind = .endOfInput)

include isLiteral isEnd

theorem exists_parse_signed (isOperator : operator.kind ∈ TokenKind.unaryOperators) :
    ∃ descent,
      parse (ofTokens (List.replicate count operator ++ [operand] ++ [last])) =
        .ok (.ok ((Tree.unary operator)^[count] (Ladder.literal operand))) descent := by
  have operandPlain := TokenKind.plain_of_mem_literals isLiteral
  have operatorPlain := TokenKind.plain_of_mem_unaryOperators isOperator
  have derives := Derives.signed isOperator (.operand (derives_literal isLiteral)) count
  refine derives.exists_parse ?_ isEnd
  intro token member
  rcases List.mem_append.1 member with signs | single
  · rw [List.eq_of_mem_replicate signs]
    exact operatorPlain.notOpening
  · rw [List.mem_singleton.1 single]
    exact operandPlain.notOpening

theorem exists_parse_chained
    {precedence : Precedence} (isOperator : operator.kind ∈ precedence.operators) :
    ∃ descent,
      parse (ofTokens
          (operand :: (List.replicate count [operator, operand]).flatten ++ [last])) =
        .ok
          (.ok
            ((fun left => .binary left operator (Ladder.literal operand))^[count]
              (Ladder.literal operand)))
          descent := by
  have operandPlain := TokenKind.plain_of_mem_literals isLiteral
  have operatorPlain := Precedence.plain_of_mem isOperator
  have first := (derives_literal isLiteral).of_rank_le precedence.operand.rank_le
  refine (first.chained isOperator count).exists_parse ?_ isEnd
  intro token member
  simp only [List.mem_append, List.mem_flatten, List.mem_replicate] at member
  rcases member with first | ⟨link, ⟨_, rfl⟩, inside⟩
  · rw [List.mem_singleton.1 first]
    exact operandPlain.notOpening
  · rcases List.mem_cons.1 inside with rfl | last
    · exact operatorPlain.notOpening
    · rw [List.mem_singleton.1 last]
      exact operandPlain.notOpening

end Operators

/-! ## The bounds -/

/-- The moves of a fresh descent lead to the answer of the ladder. -/
theorem Parses.leads
    {list : List Token} {position : Nat} {next : Token} {expr : Expr}
    {diagnostics : List Diagnostic} (parses : Parses list position next expr diagnostics) :
    Moment.Leads (.ofTokens list)
      ⟨(ofTokens list).past (list.take position) diagnostics, .answer expr, []⟩ := by
  have ahead : (ofTokens list).rest =
      list.take position ++ next :: list.drop (position + 1) :=
    parses.eq_append
  have outside : (ofTokens list).depth + maxNesting = maxNesting := Nat.zero_add maxNesting
  exact leads_expression ahead parses.stops (parses.reads.leads ahead outside []) []

/-- A fresh descent on a list that ends comes to its answer move by move.  At every moment the
depth is the number of groups that wait for their inner expression, at most 64, and at most 65
expressions wait for their chain, so that a budget for 65 of them is never used up.  No path of
the tree has more than 64 groups.  Each level, read at any depth, leaves the depth as it was.  But
operators in front of an operand, and chains to the left, make trees of any depth. -/
theorem Descent.exists_parse_bounded
    {list : List Token} (ended : Ended list) :
    (∃ answer descent expr,
      parse (ofTokens list) = .ok answer descent ∧
        bestEffort? answer = some expr ∧
        expr.groupDepth ≤ 64 ∧
        Moment.Leads (.ofTokens list) ⟨descent, .answer expr, []⟩ ∧
        parseNested 65 (ofTokens list) = .ok answer descent) ∧
    (∀ moment, Moment.Leads (.ofTokens list) moment →
      moment.descent.depth = moment.waiting.count .group ∧
        moment.descent.depth ≤ 64 ∧
        moment.waiting.count .expression ≤ 65 ∧
        moment.waiting.length ≤ 454) ∧
    (∀ (level : Level) (descent : Descent),
      Ended descent.rest →
        ∃ expr behind,
          atDepth (fun group => level.step group) descent = .ok expr behind ∧
            behind.depth = descent.depth) ∧
    ∀ (count : Nat) (operator operand last : Token),
      operand.kind ∈ TokenKind.literals →
        last.kind = .endOfInput →
          (operator.kind ∈ TokenKind.unaryOperators →
            ∃ descent,
              parse (ofTokens (List.replicate count operator ++ [operand] ++ [last])) =
                .ok (.ok ((Tree.unary operator)^[count] (Ladder.literal operand))) descent) ∧
          ∀ precedence : Precedence,
            operator.kind ∈ precedence.operators →
              ∃ descent,
                parse (ofTokens
                    (operand :: (List.replicate count [operator, operand]).flatten ++ [last])) =
                  .ok
                    (.ok
                      ((fun left => .binary left operator (Ladder.literal operand))^[count]
                        (Ladder.literal operand)))
                    descent := by
  refine ⟨?_, ?_, ?_, ?_⟩
  · obtain ⟨position, next, expr, diagnostics, parses⟩ := exists_parses ended
    refine ⟨_, _, expr, parses.parse_eq, bestEffort?_verdict expr diagnostics,
      parses.reads.groupDepth_le, parses.leads, ?_⟩
    rw [parseNested_eq (by decide)]
    exact parses.parse_eq
  · rintro moment ⟨count, rfl⟩
    have sound := (Moment.sound_ofTokens list).iterate count
    exact ⟨sound.count_group.symm, sound.within, sound.count_expression_le,
      sound.length_waiting_le⟩
  · intro level descent descentEnded
    obtain ⟨expr, tokens, diagnostics, _, _, reads⟩ :=
      proceeds_atDepth level descent descentEnded
    exact ⟨expr, _, reads, rfl⟩
  · intro count operator operand last isLiteral isEnd
    refine ⟨exists_parse_signed count isLiteral isEnd, ?_⟩
    intro precedence
    exact exists_parse_chained count isLiteral isEnd

/-- The tokens of `((nil - , nil`, with two groups that are not closed. -/
def unclosedGroupPair : List Token :=
  [.leftParen, .leftParen, .nilWord, .minus, .comma, .nilWord, .endOfInput].map Token.bare

/-- The moves come to the tree of the two groups, and no moment on the way has more than 64
groups open. -/
theorem parse_bounded_unclosedGroupPair :
    Ended unclosedGroupPair ∧
      Moment.Leads (.ofTokens unclosedGroupPair)
        ⟨⟨(unclosedGroupPair.take 4).reverse, unclosedGroupPair.drop 4, 0,
            [⟨1, .unclosedGroup⟩, ⟨1, .unclosedGroup⟩]⟩,
          .answer
            (.grouping (.grouping (.binary (.literal .nil) (.bare .minus) .empty))), []⟩ ∧
      ∀ count, (Moment.next^[count] (.ofTokens unclosedGroupPair)).descent.depth ≤ 64 := by
  have ended : Ended unclosedGroupPair := ⟨.bare .endOfInput, by decide, rfl⟩
  obtain ⟨⟨answer, descent, expr, parses, best, _, leads, _⟩, moments, _⟩ :=
    exists_parse_bounded ended
  have run :
      parse (ofTokens unclosedGroupPair) =
        .ok
          (.error (.rejected [⟨1, .unclosedGroup⟩, ⟨1, .unclosedGroup⟩]
            (.grouping (.grouping (.binary (.literal .nil) (.bare .minus) .empty)))))
          ⟨(unclosedGroupPair.take 4).reverse, unclosedGroupPair.drop 4, 0,
            [⟨1, .unclosedGroup⟩, ⟨1, .unclosedGroup⟩]⟩ := by
    decide +kernel
  rw [run] at parses
  injection parses with isAnswer isDescent
  subst isAnswer isDescent
  injection best with isExpr
  subst isExpr
  refine ⟨ended, leads, ?_⟩
  intro count
  exact (moments _ ⟨count, rfl⟩).2.1

end LoxSyntax
