import LoxSyntax.Proofs.Descent.Run

/-!
# Precedence in trees

The rank of a tree says how tightly its outermost operator binds.  In a layered tree an operator
never stands above an operand that binds weaker, and one between two operands not above a right
operand of its own rank: chains associate to the left.

Whatever a level reads is layered and ranks no lower than the level (`Reads.layered`), missing
operands, unclosed groups and skipped ones included.
-/

namespace LoxSyntax

namespace Precedence

/-- The precedence of an operator between two operands. -/
def ofKind? (kind : TokenKind) : Option Precedence :=
  [equality, comparison, term, factor].find? fun precedence => kind ∈ precedence.operators

theorem ofKind?_of_mem
    {precedence : Precedence} {kind : TokenKind} (member : kind ∈ precedence.operators) :
    ofKind? kind = some precedence := by
  have each : ∀ operator ∈ precedence.operators, ofKind? operator = some precedence := by
    cases precedence <;> decide
  exact each kind member

theorem rank_lt_rank_operand (precedence : Precedence) :
    precedence.rank < precedence.operand.rank := by
  cases precedence <;> decide

end Precedence

namespace Tree

variable {α : Type}

/-- How tightly the outermost operator of a tree binds.  A tree without one outside of groups
binds tightest, and an operator of no precedence would bind weakest. -/
def rank : Tree α → Nat
  | binary _ operator _ => ((Precedence.ofKind? operator.kind).map Precedence.rank).getD 0
  | unary _ _ => 5
  | literal _ | grouping _ | empty | hole _ => 6

theorem rank_binary
    {precedence : Precedence} {operator : Token}
    (isOperator : operator.kind ∈ precedence.operators) (left right : Tree α) :
    (binary left operator right).rank = precedence.rank := by
  rw [rank, Precedence.ofKind?_of_mem isOperator]
  rfl

end Tree

/-- `Layered expr` when each operator of the tree is one that may stand there, above operands
that rank as the grammar wants them. -/
inductive Layered : Expr → Prop
  | literal {value : Value} :
      Layered (.literal value)
  | empty :
      Layered .empty
  | grouping {inner : Expr} :
      Layered inner →
      Layered (.grouping inner)
  | unary {operator : Token} {right : Expr} :
      operator.kind ∈ TokenKind.unaryOperators →
      5 ≤ right.rank →
      Layered right →
      Layered (.unary operator right)
  | binary {precedence : Precedence} {operator : Token} {left right : Expr} :
      operator.kind ∈ precedence.operators →
      precedence.rank ≤ left.rank →
      precedence.rank < right.rank →
      Layered left →
      Layered right →
      Layered (.binary left operator right)

/-- What a level reads is layered and ranks no lower than the level. -/
theorem Reads.layered
    {level : Level} {room : Nat} {tokens : List Token} {next : Token} {expr : Expr}
    {diagnostics : List Diagnostic}
    (reads : Reads level room tokens next expr diagnostics) :
    Layered expr ∧ level.rank ≤ expr.rank := by
  induction reads with
  | literal => exact ⟨.literal, Nat.le_refl 6⟩
  | missing => exact ⟨.empty, Nat.le_refl 6⟩
  | closed _ _ _ ih => exact ⟨.grouping ih.1, Nat.le_refl 6⟩
  | unclosed _ _ _ _ ih => exact ⟨.grouping ih.1, Nat.le_refl 6⟩
  | deep => exact ⟨.empty, Nat.le_refl 6⟩
  | operand _ _ ih =>
      obtain ⟨layered, ranks⟩ := ih
      exact ⟨layered, Nat.le_of_succ_le ranks⟩
  | unary isOperator _ ih =>
      obtain ⟨layered, ranks⟩ := ih
      exact ⟨.unary isOperator ranks layered, Nat.le_refl 5⟩
  | @single precedence _ _ _ _ _ _ _ ih =>
      obtain ⟨layered, ranks⟩ := ih
      exact ⟨layered, Nat.le_of_lt (Nat.lt_of_lt_of_le precedence.rank_lt_rank_operand ranks)⟩
  | @binary precedence _ _ _ _ _ _ _ _ _ _ isOperator _ _ leftIh rightIh =>
      obtain ⟨leftLayered, leftRanks⟩ := leftIh
      obtain ⟨rightLayered, rightRanks⟩ := rightIh
      have tighter := Nat.lt_of_lt_of_le precedence.rank_lt_rank_operand rightRanks
      refine ⟨.binary isOperator leftRanks tighter leftLayered rightLayered, ?_⟩
      exact Nat.le_of_eq (Tree.rank_binary isOperator _ _).symm

/-- A fresh descent answers with a layered tree, whatever problems it records. -/
theorem Descent.exists_parse_layered
    {list : List Token} (ended : Ended list) :
    ∃ answer descent expr,
      parse (ofTokens list) = .ok answer descent ∧
        bestEffort? answer = some expr ∧
        Layered expr := by
  obtain ⟨position, next, expr, diagnostics, parses⟩ := exists_parses ended
  exact ⟨_, _, expr, parses.parse_eq, bestEffort?_verdict expr diagnostics,
    parses.reads.layered.1⟩

/-- The tokens of `nil - - nil * == (nil - nil >`. -/
def brokenEquality : List Token :=
  [.nilWord, .minus, .minus, .nilWord, .star, .equalEqual, .leftParen, .nilWord, .minus,
    .nilWord, .greater, .endOfInput].map Token.bare

open Descent in
/-- Two operands and a parenthesis are missing, and still each operator has its place. -/
theorem layered_brokenEquality :
    let expr : Expr :=
      .binary
        (.binary (.literal .nil) (.bare .minus)
          (.binary (.unary (.bare .minus) (.literal .nil)) (.bare .star) .empty))
        (.bare .equalEqual)
        (.grouping
          (.binary (.binary (.literal .nil) (.bare .minus) (.literal .nil)) (.bare .greater)
            .empty))
    Ended brokenEquality ∧
      parse (ofTokens brokenEquality) =
        .ok (.error (.rejected [⟨1, .unclosedGroup⟩] expr))
          ⟨(brokenEquality.take 11).reverse, [.bare .endOfInput], 0, [⟨1, .unclosedGroup⟩]⟩ ∧
      Layered expr := by
  intro expr
  have ended : Ended brokenEquality := ⟨.bare .endOfInput, by decide, rfl⟩
  have run :
      parse (ofTokens brokenEquality) =
        .ok (.error (.rejected [⟨1, .unclosedGroup⟩] expr))
          ⟨(brokenEquality.take 11).reverse, [.bare .endOfInput], 0, [⟨1, .unclosedGroup⟩]⟩ := by
    decide +kernel
  obtain ⟨answer, descent, other, parses, isTree, layered⟩ := exists_parse_layered ended
  rw [run] at parses
  injection parses with isAnswer
  subst isAnswer
  obtain rfl := Option.some.inj isTree
  exact ⟨ended, run, layered⟩

end LoxSyntax
