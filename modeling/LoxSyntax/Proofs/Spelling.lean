import LoxSyntax.Proofs.Groups

/-!
# The tokens that a tree spells

`Spells expr tokens` reads a tree off as tokens, from left to right.  A missing operand spells
nothing, and so does a group that was skipped.

What a level reads is spelled by its tree, up to skipped groups and missing closing
parentheses (`Reads.spells`): no token is lost and none invented.
-/

namespace LoxSyntax

/-- `Spells expr tokens` when `tokens` spell the tree. -/
inductive Spells : Expr → List Token → Prop
  | nil {token : Token} :
      token.kind = .nilWord →
      Spells (.literal .nil) [token]
  | literal {token : Token} :
      token.kind ∈ TokenKind.literals →
      token.kind ≠ .nilWord →
      Spells (.literal token.value) [token]
  | grouping {opening closing : Token} {tokens : List Token} {inner : Expr} :
      opening.kind = .leftParen →
      Spells inner tokens →
      closing.kind = .rightParen →
      Spells (.grouping inner) (opening :: tokens ++ [closing])
  | unary {operator : Token} {tokens : List Token} {right : Expr} :
      Spells right tokens →
      Spells (.unary operator right) (operator :: tokens)
  | binary {operator : Token} {lefts rights : List Token} {left right : Expr} :
      Spells left lefts →
      Spells right rights →
      Spells (.binary left operator right) (lefts ++ operator :: rights)
  | empty :
      Spells .empty []

theorem spells_literal {token : Token} (isLiteral : token.kind ∈ TokenKind.literals) :
    Spells (Descent.Ladder.literal token) [token] := by
  rw [Descent.Ladder.literal]
  split
  · exact .nil ‹_›
  · exact .literal isLiteral ‹_›

/-- What a level reads, without the groups that are skipped and with the parentheses that are
missing, is spelled by the tree. -/
theorem Reads.spells
    {level : Level} {room : Nat} {tokens : List Token} {next : Token} {expr : Expr}
    {diagnostics : List Diagnostic}
    (reads : Reads level room tokens next expr diagnostics)
    {limit opened : Nat} (within : opened + room = limit)
    {closers : List Token} (count : closers.length = unclosedGroups diagnostics)
    (areClosing : ∀ closer ∈ closers, closer.kind = .rightParen) :
    Spells expr (Groups.kept limit ⟨opened, 0⟩ tokens ++ closers) := by
  induction reads generalizing opened closers with
  | literal isLiteral =>
      have plain := TokenKind.plain_of_mem_literals isLiteral
      rw [List.eq_nil_of_length_eq_zero count, List.append_nil, Groups.kept_cons_of_plain plain]
      exact spells_literal isLiteral
  | missing =>
      rw [List.eq_nil_of_length_eq_zero count]
      exact .empty
  | @closed room opening closing next tokens inner diagnostics isOpening reads isClosing ih =>
      have within : opened + 1 + room = limit := by omega
      have none := reads.unclosedGroups_eq_zero (Or.inl isClosing)
      rw [none] at count
      have inside : Spells inner (Groups.kept limit ⟨opened + 1, 0⟩ tokens ++ []) :=
        ih within none.symm (by simp)
      rw [List.append_nil] at inside
      rw [List.eq_nil_of_length_eq_zero count, List.append_nil, List.cons_append,
        Groups.kept_cons_of_opening isOpening (by omega), Groups.kept_append,
        reads.behind_eq within (Or.inl isClosing), Groups.kept_singleton_of_closing isClosing]
      exact .grouping isOpening inside isClosing
  | @unclosed room opening next tokens inner diagnostics isOpening _ _ _ ih =>
      have within : opened + 1 + room = limit := by omega
      rw [unclosedGroups_append, unclosedGroups_singleton] at count
      rcases List.eq_nil_or_concat closers with rfl | ⟨others, last, rfl⟩
      · simp at count
      rw [List.concat_eq_append] at count areClosing ⊢
      have othersClosing : ∀ closer ∈ others, closer.kind = .rightParen := by
        intro closer member
        exact areClosing closer (List.mem_append_left _ member)
      have lastClosing : last.kind = .rightParen := areClosing last (by simp)
      have inside := ih within (by simpa using count) othersClosing
      rw [Groups.kept_cons_of_opening isOpening (by omega)]
      have whole := Spells.grouping isOpening inside lastClosing
      simpa using whole
  | deep isOpening skips =>
      rw [List.eq_nil_of_length_eq_zero count, List.append_nil,
        Groups.kept_cons_of_deep isOpening (by omega), skips.kept]
      exact .empty
  | operand _ _ ih => exact ih within count areClosing
  | unary isOperator _ ih =>
      have plain := TokenKind.plain_of_mem_unaryOperators isOperator
      rw [Groups.kept_cons_of_plain plain]
      exact .unary (ih within count areClosing)
  | single _ _ ih => exact ih within count areClosing
  | @binary precedence room operator next lefts rights left right leftDiagnostics
      rightDiagnostics leftReads isOperator _ _ leftIh rightIh =>
      have plain := Precedence.plain_of_mem isOperator
      have continues : operator.kind = .rightParen ∨
          ∃ precedence : Precedence, operator.kind ∈ precedence.operators :=
        Or.inr ⟨precedence, isOperator⟩
      have none := leftReads.unclosedGroups_eq_zero continues
      rw [unclosedGroups_append, none, Nat.zero_add] at count
      have leftSide : Spells left (Groups.kept limit ⟨opened, 0⟩ lefts ++ []) :=
        leftIh within none.symm (by simp)
      rw [List.append_nil] at leftSide
      rw [Groups.kept_append, leftReads.behind_eq within continues,
        Groups.kept_cons_of_plain plain, List.append_assoc, List.cons_append]
      exact .binary leftSide (rightIh within count areClosing)

/-- A fresh descent answers with a tree that spells the tokens taken, except for the groups that
open while 64 others are open, and behind them one closing parenthesis for each group whose own
is reported to be missing. -/
theorem Descent.exists_parse_spells
    {list : List Token} (ended : Ended list) :
    ∃ answer descent expr,
      parse (ofTokens list) = .ok answer descent ∧
        bestEffort? answer = some expr ∧
        ∀ closers : List Token,
          closers.length = unclosedGroups descent.diagnostics →
          (∀ closer ∈ closers, closer.kind = .rightParen) →
          Spells expr (Groups.kept 64 ⟨0, 0⟩ (list.take descent.position) ++ closers) := by
  obtain ⟨position, next, expr, diagnostics, parses⟩ := exists_parses ended
  refine ⟨_, _, expr, parses.parse_eq, bestEffort?_verdict expr diagnostics, ?_⟩
  intro closers count areClosing
  rw [parses.position_past]
  exact parses.reads.spells (Nat.zero_add maxNesting) count areClosing

/-- The tokens of `(nil -`. -/
def brokenGroup : List Token :=
  [.leftParen, .nilWord, .minus, .endOfInput].map Token.bare

open Descent in
/-- Where an operand and a parenthesis are missing, the tree spells the other tokens and the
parenthesis. -/
theorem spells_brokenGroup :
    let expr : Expr := .grouping (.binary (.literal .nil) (.bare .minus) .empty)
    Ended brokenGroup ∧
      parse (ofTokens brokenGroup) =
        .ok (.error (.rejected [⟨1, .unclosedGroup⟩] expr))
          ⟨(brokenGroup.take 3).reverse, [.bare .endOfInput], 0, [⟨1, .unclosedGroup⟩]⟩ ∧
      Spells expr [.bare .leftParen, .bare .nilWord, .bare .minus, .bare .rightParen] := by
  intro expr
  have ended : Ended brokenGroup := ⟨.bare .endOfInput, by decide, rfl⟩
  have run :
      parse (ofTokens brokenGroup) =
        .ok (.error (.rejected [⟨1, .unclosedGroup⟩] expr))
          ⟨(brokenGroup.take 3).reverse, [.bare .endOfInput], 0, [⟨1, .unclosedGroup⟩]⟩ :=
    rfl
  obtain ⟨answer, descent, other, parses, isTree, spells⟩ := exists_parse_spells ended
  rw [run] at parses
  injection parses with isAnswer isDescent
  subst isAnswer isDescent
  obtain rfl := Option.some.inj isTree
  exact ⟨ended, run, spells [.bare .rightParen] rfl (by decide)⟩

end LoxSyntax
