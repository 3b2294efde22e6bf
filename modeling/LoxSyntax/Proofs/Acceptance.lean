import LoxSyntax.Proofs.Descent.Run

/-!
# What is accepted

A descent accepts exactly the expressions of the grammar whose parentheses nest no deeper than
the ladder allows, in front of a token that no expression goes on with.

A reading without diagnostics of a tree without gaps is a derivation (`Reads.derives`), and a
derivation is read wherever there is room for its groups (`Derives.reads`).
-/

namespace LoxSyntax

theorem nesting_singleton
    {token : Token}
    (notOpening : token.kind ≠ .leftParen) (notClosing : token.kind ≠ .rightParen) :
    nesting [token] = 0 := by
  simp [nesting, deepest, TokenKind.openBehind_eq 0 notOpening notClosing]

theorem nesting_cons
    {token : Token}
    (notOpening : token.kind ≠ .leftParen) (notClosing : token.kind ≠ .rightParen)
    (tokens : List Token) :
    nesting (token :: tokens) = nesting tokens := by
  simp [nesting, deepest, TokenKind.openBehind_eq 0 notOpening notClosing]

theorem nesting_append
    {lefts : List Token} (balanced : Balanced lefts) (rights : List Token) :
    nesting (lefts ++ rights) = max (nesting lefts) (nesting rights) := by
  rw [nesting, balanced.deepest_append, Nat.zero_add]
  rfl

theorem nesting_group
    {opening closing : Token} {tokens : List Token}
    (isOpening : opening.kind = .leftParen) (balanced : Balanced tokens)
    (isClosing : closing.kind = .rightParen) :
    nesting (opening :: tokens ++ [closing]) = nesting tokens + 1 := by
  simp only [nesting, List.cons_append, deepest, isOpening, TokenKind.openBehind,
    balanced.deepest_append, isClosing]
  omega

theorem mem_literals_iff {kind : TokenKind} :
    kind ∈ TokenKind.literals ↔
      kind = .nilWord ∨ kind ∈ [TokenKind.number, .string, .trueWord, .falseWord] := by
  cases kind <;> decide

theorem Derives.balanced
    {level : Level} {tokens : List Token} {expr : Expr} (derives : Derives level tokens expr) :
    Balanced tokens := by
  induction derives with
  | nil isNil =>
      have plain := TokenKind.plain_of_mem_literals (mem_literals_iff.2 (Or.inl isNil))
      exact .plain plain.notOpening plain.notClosing .nil
  | literal isLiteral =>
      have plain := TokenKind.plain_of_mem_literals (mem_literals_iff.2 (Or.inr isLiteral))
      exact .plain plain.notOpening plain.notClosing .nil
  | grouping isOpening _ isClosing inner => exact .group isOpening inner isClosing .nil
  | operand _ ih => exact ih
  | unary isOperator _ ih =>
      have plain := TokenKind.plain_of_mem_unaryOperators isOperator
      exact .plain plain.notOpening plain.notClosing ih
  | single _ ih => exact ih
  | binary _ isOperator _ leftIh rightIh =>
      have plain := Precedence.plain_of_mem isOperator
      exact leftIh.append (.plain plain.notOpening plain.notClosing rightIh)

theorem derives_literal {token : Token} (isLiteral : token.kind ∈ TokenKind.literals) :
    Derives .primary [token] (Descent.Ladder.literal token) := by
  rw [Descent.Ladder.literal]
  split
  · exact .nil ‹_›
  · exact .literal ((mem_literals_iff.1 isLiteral).resolve_left ‹_›)

/-- What is read without diagnostics and without gaps is derived, and there was room for it. -/
theorem Reads.derives
    {level : Level} {room : Nat} {tokens : List Token} {next : Token} {expr : Expr}
    {diagnostics : List Diagnostic}
    (reads : Reads level room tokens next expr diagnostics)
    (complete : expr.complete) (clean : diagnostics = []) :
    Derives level tokens expr ∧ nesting tokens ≤ room := by
  induction reads with
  | literal isLiteral =>
      have plain := TokenKind.plain_of_mem_literals isLiteral
      refine ⟨derives_literal isLiteral, ?_⟩
      rw [nesting_singleton plain.notOpening plain.notClosing]
      exact Nat.zero_le _
  | missing => simp [Tree.complete] at complete
  | closed isOpening _ isClosing ih =>
      obtain ⟨inner, bound⟩ := ih complete clean
      refine ⟨.grouping isOpening inner isClosing, ?_⟩
      rw [nesting_group isOpening inner.balanced isClosing]
      exact Nat.succ_le_succ bound
  | unclosed => simp at clean
  | deep => simp at clean
  | operand _ _ ih =>
      obtain ⟨primary, bound⟩ := ih complete clean
      exact ⟨.operand primary, bound⟩
  | unary isOperator _ ih =>
      have plain := TokenKind.plain_of_mem_unaryOperators isOperator
      obtain ⟨right, bound⟩ := ih complete clean
      refine ⟨.unary isOperator right, ?_⟩
      rw [nesting_cons plain.notOpening plain.notClosing]
      exact bound
  | single _ _ ih =>
      obtain ⟨operand, bound⟩ := ih complete clean
      exact ⟨.single operand, bound⟩
  | binary _ isOperator _ _ leftIh rightIh =>
      have plain := Precedence.plain_of_mem isOperator
      simp only [Tree.complete, Bool.and_eq_true] at complete
      obtain ⟨leftClean, rightClean⟩ := List.append_eq_nil_iff.1 clean
      obtain ⟨left, leftBound⟩ := leftIh complete.1 leftClean
      obtain ⟨right, rightBound⟩ := rightIh complete.2 rightClean
      refine ⟨.binary left isOperator right, ?_⟩
      rw [nesting_append left.balanced, nesting_cons plain.notOpening plain.notClosing]
      exact Nat.max_le.2 ⟨leftBound, rightBound⟩

theorem Derives.headD_not_mem_unaryOperators
    {tokens : List Token} {expr : Expr} (derives : Derives .primary tokens expr)
    (next : Token) :
    (tokens.headD next).kind ∉ TokenKind.unaryOperators := by
  cases derives with
  | nil isNil => simp [isNil, TokenKind.unaryOperators]
  | literal isLiteral =>
      revert isLiteral
      simp only [List.headD_cons]
      generalize Token.kind _ = kind
      cases kind <;> decide
  | grouping isOpening => simp [isOpening, TokenKind.unaryOperators]

/-- What continues no operand of a chain continues nothing inside such an operand. -/
theorem Precedence.operand_stops
    {precedence : Precedence} {kind : TokenKind}
    (stops : ∀ tighter : Precedence, precedence.rank < tighter.rank → kind ∉ tighter.operators) :
    kind ∉ precedence.operand.operators ∧
      ∀ tighter : Precedence, precedence.operand.rank < tighter.rank →
        kind ∉ tighter.operators := by
  constructor
  · cases precedence with
    | equality => exact stops .comparison (by decide)
    | comparison => exact stops .term (by decide)
    | term => exact stops .factor (by decide)
    | factor => exact List.not_mem_nil
  · intro tighter later
    have weaker : precedence.rank < precedence.operand.rank := by
      cases precedence <;> decide
    exact stops tighter (Nat.lt_trans weaker later)

/-- A derivation is read where there is room for its groups, in front of a token that continues
none of its operands. -/
theorem Derives.reads
    {level : Level} {tokens : List Token} {expr : Expr} (derives : Derives level tokens expr)
    {room : Nat} (bound : nesting tokens ≤ room) {next : Token}
    (stops : ∀ precedence : Precedence, level.rank < precedence.rank →
      next.kind ∉ precedence.operators) :
    Reads level room tokens next expr [] := by
  have noneTighter (precedence : Precedence) : ¬ 5 < precedence.rank := by
    cases precedence <;> decide
  -- What follows an operand differs from what follows the whole, so `next` varies.
  induction derives generalizing room next with
  | @nil token isNil =>
      have reads : Reads .primary room [token] next _ [] :=
        .literal (mem_literals_iff.2 (Or.inl isNil))
      rw [Descent.Ladder.literal, if_pos isNil] at reads
      exact reads
  | @literal token isLiteral =>
      have notNil : token.kind ≠ .nilWord := by
        intro isNil
        rw [isNil] at isLiteral
        exact absurd isLiteral (by decide)
      have reads : Reads .primary room [token] next _ [] :=
        .literal (mem_literals_iff.2 (Or.inr isLiteral))
      rw [Descent.Ladder.literal, if_neg notNil] at reads
      exact reads
  | grouping isOpening inner isClosing ih =>
      rw [nesting_group isOpening inner.balanced isClosing] at bound
      obtain ⟨room, rfl⟩ := Nat.exists_eq_add_of_le' (Nat.le_trans (Nat.le_add_left 1 _) bound)
      refine .closed isOpening (ih (Nat.le_of_succ_le_succ bound) ?_) isClosing
      intro tighter _ isOperator
      exact (Precedence.plain_of_mem isOperator).notClosing isClosing
  | operand primary ih =>
      refine .operand (primary.headD_not_mem_unaryOperators next) (ih bound ?_)
      intro tighter later
      have behindUnary : 5 < tighter.rank := Nat.lt_trans (by decide) later
      exact absurd behindUnary (noneTighter tighter)
  | unary isOperator _ ih =>
      have plain := TokenKind.plain_of_mem_unaryOperators isOperator
      rw [nesting_cons plain.notOpening plain.notClosing] at bound
      exact .unary isOperator (ih bound stops)
  | single _ ih =>
      obtain ⟨done, inside⟩ := Precedence.operand_stops stops
      exact .single (ih bound inside) done
  | binary left isOperator _ leftIh rightIh =>
      have plain := Precedence.plain_of_mem isOperator
      rw [nesting_append left.balanced, nesting_cons plain.notOpening plain.notClosing] at bound
      obtain ⟨done, inside⟩ := Precedence.operand_stops stops
      refine .binary (leftIh (Nat.le_trans (Nat.le_max_left _ _) bound) ?_) isOperator
        (rightIh (Nat.le_trans (Nat.le_max_right _ _) bound) inside) done
      intro tighter later another
      rw [Precedence.eq_of_mem_operators isOperator another] at later
      exact Nat.lt_irrefl _ later

open Descent in
/-- A descent accepts exactly the expressions of the grammar that nest at most 64 deep, in front
of a token that is no operator between operands. -/
theorem parse_eq_ok_iff_derives
    {list : List Token} (ended : Ended list) {expr : Expr} (complete : expr.complete)
    (position : Nat) :
    (∃ descent, parse (ofTokens list) = .ok (.ok expr) descent ∧
        descent.position = position) ↔
      Derives .expression (list.take position) expr ∧
        nesting (list.take position) ≤ 64 ∧
        ∃ next, list[position]? = some next ∧
          ∀ precedence : Precedence, next.kind ∉ precedence.operators := by
  constructor
  · rintro ⟨descent, accepts, reached⟩
    obtain ⟨stop, next, read, diagnostics, parses⟩ := exists_parses ended
    rw [parses.parse_eq] at accepts
    injection accepts with answer moved
    obtain ⟨clean, rfl⟩ := verdict_eq_ok_iff.1 answer
    rw [← moved, parses.position_past] at reached
    subst reached
    obtain ⟨derives, bound⟩ := parses.reads.derives complete clean
    exact ⟨derives, bound, next, parses.atPosition,
      parses.reads.not_mem_operators parses.stops⟩
  · rintro ⟨derives, bound, next, atPosition, stops⟩
    have reads : Reads .expression maxNesting (list.take position) next expr [] := by
      apply derives.reads bound
      intro precedence _
      exact stops precedence
    have parses : Parses list position next expr [] :=
      ⟨atPosition, reads, stops .equality⟩
    exact ⟨_, parses.parse_eq, parses.position_past⟩

/-- The tokens of `-nil * (nil - nil))`, with a parenthesis too many. -/
def overclosedProduct : List Token :=
  [.minus, .nilWord, .star, .leftParen, .nilWord, .minus, .nilWord, .rightParen, .rightParen,
    .endOfInput].map Token.bare

open Descent in
/-- The product is accepted up to the parenthesis, and derives from the grammar. -/
theorem derives_product :
    let product : Expr :=
      .binary (.unary (.bare .minus) (.literal .nil)) (.bare .star)
        (.grouping (.binary (.literal .nil) (.bare .minus) (.literal .nil)))
    (∃ descent, parse (ofTokens overclosedProduct) = .ok (.ok product) descent ∧
        descent.position = 8) ∧
      Derives .expression (overclosedProduct.take 8) product := by
  intro product
  have ended : Ended overclosedProduct := ⟨.bare .endOfInput, by decide, rfl⟩
  have complete : product.complete := rfl
  have accepted : ∃ descent, parse (ofTokens overclosedProduct) = .ok (.ok product) descent ∧
      descent.position = 8 :=
    ⟨_, rfl, rfl⟩
  exact ⟨accepted, ((parse_eq_ok_iff_derives ended complete 8).1 accepted).1⟩

end LoxSyntax
