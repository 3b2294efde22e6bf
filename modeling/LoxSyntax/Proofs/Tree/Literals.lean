import LoxSyntax.Proofs.Precedence
import LoxSyntax.Proofs.Spelling

/-!
# The literals of a tree

The literals of a tree stand in the order of their tokens: what a level reads has, from left to
right, the values of the literal tokens that belong to no skipped group (`Reads.literals_eq`).
So a literal can be told by the number of those in front of it, and another tree be put in its
place.
-/

namespace LoxSyntax

namespace Tree

variable {α : Type}

/-- The values of the literals of a tree, from left to right. -/
def literals : Tree α → List Value
  | literal value => [value]
  | grouping inner => inner.literals
  | unary _ right => right.literals
  | binary left _ right => left.literals ++ right.literals
  | empty => []
  | hole _ => []

/-- The tree with another one in the place of the literal that has `index` literals in front of
it. -/
def replaceLiteral : Tree α → (index : Nat) → (replacement : Tree α) → Tree α
  | literal value, index, replacement => if index = 0 then replacement else literal value
  | grouping inner, index, replacement => grouping (inner.replaceLiteral index replacement)
  | unary operator right, index, replacement =>
      unary operator (right.replaceLiteral index replacement)
  | binary left operator right, index, replacement =>
      let before := left.literals.length
      if index < before then binary (left.replaceLiteral index replacement) operator right
      else binary left operator (right.replaceLiteral (index - before) replacement)
  | empty, _, _ => empty
  | hole content, _, _ => hole content

end Tree

/-- The tokens of a list that are an operand by themselves. -/
def literalTokens (tokens : List Token) : List Token :=
  tokens.filter fun token => token.kind ∈ TokenKind.literals

/-- The value of the literal that a token is read as. -/
def Token.literalValue (token : Token) : Value :=
  if token.kind = .nilWord then .nil else token.value

@[simp]
theorem literalTokens_append (lefts rights : List Token) :
    literalTokens (lefts ++ rights) = literalTokens lefts ++ literalTokens rights :=
  List.filter_append ..

theorem literalTokens_cons_of_mem
    {token : Token}
    (isLiteral : token.kind ∈ TokenKind.literals)
    (tokens : List Token) :
    literalTokens (token :: tokens) = token :: literalTokens tokens :=
  List.filter_cons_of_pos (by simpa using isLiteral)

theorem literalTokens_cons_of_not_mem
    {token : Token}
    (notLiteral : token.kind ∉ TokenKind.literals)
    (tokens : List Token) :
    literalTokens (token :: tokens) = literalTokens tokens :=
  List.filter_cons_of_neg (by simpa using notLiteral)

theorem TokenKind.not_mem_literals_of_mem_unaryOperators
    {kind : TokenKind}
    (isOperator : kind ∈ unaryOperators) :
    kind ∉ literals := by
  revert isOperator
  cases kind <;> decide

theorem Precedence.not_mem_literals
    {precedence : Precedence} {kind : TokenKind}
    (isOperator : kind ∈ precedence.operators) :
    kind ∉ TokenKind.literals := by
  revert isOperator
  cases precedence <;> cases kind <;> decide

/-- A layered tree has the literals that it spells. -/
theorem Spells.literals_eq
    {expr : Expr} {tokens : List Token}
    (spells : Spells expr tokens)
    (layered : Layered expr) :
    expr.literals = (literalTokens tokens).map Token.literalValue := by
  induction spells with
  | @nil token isNil =>
      have isLiteral : token.kind ∈ TokenKind.literals := by
        rw [isNil]
        decide
      rw [literalTokens_cons_of_mem isLiteral]
      simp [Tree.literals, literalTokens, Token.literalValue, isNil]
  | literal isLiteral notNil =>
      rw [literalTokens_cons_of_mem isLiteral]
      simp [Tree.literals, literalTokens, Token.literalValue, notNil]
  | @grouping opening closing tokens inner isOpening _ isClosing ih =>
      have notOpening : opening.kind ∉ TokenKind.literals := by
        rw [isOpening]
        decide
      have notClosing : closing.kind ∉ TokenKind.literals := by
        rw [isClosing]
        decide
      cases layered with
      | grouping inside =>
          rw [List.cons_append, literalTokens_cons_of_not_mem notOpening, literalTokens_append,
            literalTokens_cons_of_not_mem notClosing, List.map_append, Tree.literals, ih inside]
          simp [literalTokens]
  | unary _ ih =>
      cases layered with
      | unary isOperator _ inside =>
          have notLiteral := TokenKind.not_mem_literals_of_mem_unaryOperators isOperator
          rw [literalTokens_cons_of_not_mem notLiteral, Tree.literals, ih inside]
  | binary _ _ leftIh rightIh =>
      cases layered with
      | binary isOperator _ _ left right =>
          have notLiteral := Precedence.not_mem_literals isOperator
          rw [literalTokens_append, literalTokens_cons_of_not_mem notLiteral, List.map_append,
            Tree.literals, leftIh left, rightIh right]
  | empty => rfl

theorem Reads.literals_eq
    {level : Level} {room : Nat} {tokens : List Token} {next : Token} {expr : Expr}
    {diagnostics : List Diagnostic}
    (reads : Reads level room tokens next expr diagnostics)
    {limit opened : Nat}
    (within : opened + room = limit) :
    expr.literals =
      (literalTokens (Groups.kept limit ⟨opened, 0⟩ tokens)).map Token.literalValue := by
  let closers := List.replicate (unclosedGroups diagnostics) (Token.bare .rightParen)
  have spells : Spells expr (Groups.kept limit ⟨opened, 0⟩ tokens ++ closers) := by
    apply reads.spells within
    · simp [closers]
    · intro closer member
      rw [List.eq_of_mem_replicate member]
      rfl
  have none : literalTokens closers = [] := by
    simp [literalTokens, closers, Token.bare, TokenKind.literals]
  rw [spells.literals_eq reads.layered.1, literalTokens_append, none, List.append_nil]

end LoxSyntax
