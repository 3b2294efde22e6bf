import LoxSyntax.Tree.Basic

/-!
# The grammar of expressions

    expression := equality
    equality   := comparison (('==' | '!=') comparison)*
    comparison := term (('>' | '>=' | '<' | '<=') term)*
    term       := factor (('-' | '+') factor)*
    factor     := unary (('/' | '*') unary)*
    unary      := ('!' | '-') unary | primary
    primary    := NUMBER | STRING | 'true' | 'false' | 'nil' | '(' expression ')'

`Derives level tokens expr` says that `tokens` derive from the rule of `level` and that `expr` is
the tree of the derivation.  A chain of operands is folded to the left, so its rule is written
with the chain so far on the left.

The grammar bounds no nesting.  `nesting` measures how deep the parentheses of a list of tokens
nest, and `Balanced` says that each of them has its partner.
-/

namespace LoxSyntax

namespace TokenKind

/-- A token of a plain kind neither opens nor closes a group, and does not end the input. -/
structure Plain (kind : TokenKind) : Prop where
  notOpening : kind ≠ .leftParen
  notClosing : kind ≠ .rightParen
  goesOn : kind ≠ .endOfInput

theorem plain_of_mem_literals {kind : TokenKind} (member : kind ∈ literals) : kind.Plain := by
  constructor <;> rintro rfl <;> revert member <;> decide

theorem plain_of_mem_unaryOperators
    {kind : TokenKind} (member : kind ∈ unaryOperators) :
    kind.Plain := by
  constructor <;> rintro rfl <;> revert member <;> decide

end TokenKind

/-- A token of a kind, on the first line and without text and value. -/
def Token.bare (kind : TokenKind) : Token :=
  ⟨kind, none, .nil, 1⟩

/-- How tightly an operator between two operands binds. -/
inductive Precedence where
  | equality | comparison | term | factor
deriving DecidableEq, Repr

/-- What an expression is read as: operands with operators of one precedence between them, an
operand with operators in front, or a single operand. -/
inductive Level where
  | chain (precedence : Precedence)
  | unary
  | primary
deriving DecidableEq, Repr

namespace Precedence

/-- The operators of a precedence. -/
def operators : Precedence → List TokenKind
  | equality => [.equalEqual, .bangEqual]
  | comparison => [.greater, .greaterEqual, .less, .lessEqual]
  | term => [.minus, .plus]
  | factor => [.slash, .star]

/-- The place of a precedence among the four, the weakest first. -/
def rank : Precedence → Nat
  | equality => 1
  | comparison => 2
  | term => 3
  | factor => 4

/-- What the operators of a precedence stand between. -/
def operand : Precedence → Level
  | equality => .chain comparison
  | comparison => .chain term
  | term => .chain factor
  | factor => .unary

theorem eq_of_mem_operators
    {precedence other : Precedence} {kind : TokenKind}
    (member : kind ∈ precedence.operators)
    (otherMember : kind ∈ other.operators) :
    precedence = other := by
  cases precedence <;> cases other <;>
    simp only [operators, List.mem_cons, List.not_mem_nil] at member otherMember <;>
    first | rfl | grind

theorem plain_of_mem
    {precedence : Precedence} {kind : TokenKind} (member : kind ∈ precedence.operators) :
    kind.Plain := by
  constructor <;> rintro rfl <;> cases precedence <;> revert member <;> decide

end Precedence

namespace Level

/-- The level of a whole expression. -/
abbrev expression : Level := chain .equality

/-- The operators that continue what has been read at a level. -/
def operators : Level → List TokenKind
  | chain precedence => precedence.operators
  | unary => []
  | primary => []

/-- The place of a level, the one that binds weakest first. -/
def rank : Level → Nat
  | chain precedence => precedence.rank
  | unary => 5
  | primary => 6

end Level

/-- An operator that binds tighter than those of a precedence continues the operands of that
precedence, or binds tighter than they do. -/
theorem Precedence.operand_eq_or_rank_lt
    {precedence tighter : Precedence}
    (later : precedence.rank < tighter.rank) :
    precedence.operand = .chain tighter ∨ precedence.operand.rank < tighter.rank := by
  cases precedence <;> cases tighter <;>
    simp [Precedence.rank, Precedence.operand, Level.rank] at later ⊢

/-- `Derives level tokens expr` when `tokens` derive from the rule of `level` and `expr` is the
tree of the derivation. -/
inductive Derives : Level → List Token → Expr → Prop
  | nil {token : Token} :
      token.kind = .nilWord →
      Derives .primary [token] (.literal .nil)
  | literal {token : Token} :
      token.kind ∈ [.number, .string, .trueWord, .falseWord] →
      Derives .primary [token] (.literal token.value)
  | grouping {opening closing : Token} {tokens : List Token} {inner : Expr} :
      opening.kind = .leftParen →
      Derives .expression tokens inner →
      closing.kind = .rightParen →
      Derives .primary (opening :: tokens ++ [closing]) (.grouping inner)
  | operand {tokens : List Token} {expr : Expr} :
      Derives .primary tokens expr →
      Derives .unary tokens expr
  | unary {operator : Token} {tokens : List Token} {right : Expr} :
      operator.kind ∈ [.bang, .minus] →
      Derives .unary tokens right →
      Derives .unary (operator :: tokens) (.unary operator right)
  | single {precedence : Precedence} {tokens : List Token} {expr : Expr} :
      Derives precedence.operand tokens expr →
      Derives (.chain precedence) tokens expr
  | binary {precedence : Precedence} {operator : Token} {lefts rights : List Token}
      {left right : Expr} :
      Derives (.chain precedence) lefts left →
      operator.kind ∈ precedence.operators →
      Derives precedence.operand rights right →
      Derives (.chain precedence) (lefts ++ operator :: rights) (.binary left operator right)

/-- Whether no operand of a tree is missing. -/
def Tree.complete {α : Type} : Tree α → Bool
  | literal _ => true
  | grouping inner => inner.complete
  | unary _ right => right.complete
  | binary left _ right => left.complete && right.complete
  | empty => false
  | hole _ => true

/-- How many groups are open behind a token, with `opened` open in front of it. -/
def TokenKind.openBehind (opened : Nat) : TokenKind → Nat
  | leftParen => opened + 1
  | rightParen => opened - 1
  | _ => opened

/-- The greatest number of groups that are open at one place of a list, with `opened` open at
its beginning. -/
def deepest (opened : Nat) : List Token → Nat
  | [] => opened
  | token :: rest => max opened (deepest (token.kind.openBehind opened) rest)

/-- How deep the parentheses of a list of tokens nest. -/
def nesting (tokens : List Token) : Nat :=
  deepest 0 tokens

/-- Every parenthesis has its partner. -/
inductive Balanced : List Token → Prop
  | nil : Balanced []
  | plain {token : Token} {rest : List Token} :
      token.kind ≠ .leftParen →
      token.kind ≠ .rightParen →
      Balanced rest →
      Balanced (token :: rest)
  | group {opening closing : Token} {inner rest : List Token} :
      opening.kind = .leftParen →
      Balanced inner →
      closing.kind = .rightParen →
      Balanced rest →
      Balanced (opening :: inner ++ closing :: rest)

theorem TokenKind.openBehind_eq
    {kind : TokenKind} (opened : Nat)
    (notOpening : kind ≠ .leftParen) (notClosing : kind ≠ .rightParen) :
    kind.openBehind opened = opened := by
  cases kind <;> first | rfl | contradiction

theorem le_deepest (opened : Nat) (tokens : List Token) :
    opened ≤ deepest opened tokens := by
  cases tokens with
  | nil => exact Nat.le_refl opened
  | cons token rest => exact Nat.le_max_left _ _

namespace Balanced

theorem append
    {lefts rights : List Token}
    (left : Balanced lefts) (right : Balanced rights) :
    Balanced (lefts ++ rights) := by
  induction left with
  | nil => exact right
  | plain notOpening notClosing _ ih => exact .plain notOpening notClosing ih
  | group isOpening inner isClosing _ _ ih =>
      simpa using Balanced.group isOpening inner isClosing ih

/-- Behind balanced tokens as many groups are open as in front of them. -/
theorem deepest_append
    {tokens : List Token} (balanced : Balanced tokens) (opened : Nat) (rest : List Token) :
    deepest opened (tokens ++ rest) =
      max (opened + nesting tokens) (deepest opened rest) := by
  induction balanced generalizing opened rest with
  | nil =>
      have atLeast : opened ≤ deepest opened rest := le_deepest opened rest
      simp only [List.nil_append, nesting, deepest]
      omega
  | @plain token later notOpening notClosing _ ih =>
      have behind : ∀ depth, token.kind.openBehind depth = depth := by
        intro depth
        exact TokenKind.openBehind_eq depth notOpening notClosing
      simp only [List.cons_append, nesting, deepest, behind]
      rw [ih]
      simp only [nesting]
      omega
  | @group opening closing inner later isOpening _ isClosing _ innerIh laterIh =>
      have nested (depth : Nat) (tail : List Token) :
          deepest depth (opening :: inner ++ closing :: later ++ tail) =
            max (depth + 1 + nesting inner)
              (max (depth + nesting later) (deepest depth tail)) := by
        simp only [List.cons_append, List.append_assoc, deepest, isOpening, isClosing,
          TokenKind.openBehind, innerIh, Nat.add_sub_cancel, laterIh]
        omega
      have alone : nesting (opening :: inner ++ closing :: later) =
          max (1 + nesting inner) (nesting later) := by
        have whole := nested 0 []
        simp only [List.append_nil, deepest, Nat.zero_add] at whole
        rw [nesting, whole]
        omega
      rw [nested, alone]
      omega

end Balanced

end LoxSyntax
