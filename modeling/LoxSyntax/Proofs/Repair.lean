import LoxSyntax.Proofs.Complaints

/-!
# Supplying what is missing

Where the only complaints are about closing parentheses that are missing, these can be supplied:
the tokens that were taken, with the parentheses behind them, are read as the same tree without
a complaint (`Reads.supplied`).  All decisions that were made in front of the token at fault are
made again in front of a closing parenthesis or the end.
-/

namespace LoxSyntax

namespace TokenKind

/-- The token closes a group or ends the input. -/
def Closes (kind : TokenKind) : Prop :=
  kind = .rightParen ∨ kind = .endOfInput

namespace Closes

variable {kind : TokenKind}

theorem not_mem_literals (closes : kind.Closes) : kind ∉ literals := by
  rcases closes with rfl | rfl <;> decide

theorem ne_leftParen (closes : kind.Closes) : kind ≠ .leftParen := by
  rcases closes with rfl | rfl <;> decide

theorem not_mem_unaryOperators (closes : kind.Closes) : kind ∉ unaryOperators := by
  rcases closes with rfl | rfl <;> decide

theorem not_mem_operators (closes : kind.Closes) (level : Level) : kind ∉ level.operators := by
  cases level with
  | chain precedence =>
      intro isOperator
      have plain := Precedence.plain_of_mem isOperator
      rcases closes with isClosing | isEnd
      · exact plain.notClosing isClosing
      · exact plain.goesOn isEnd
  | unary => exact List.not_mem_nil
  | primary => exact List.not_mem_nil

end Closes

end TokenKind

/-- No group was too deep. -/
def Shallow (diagnostics : List Diagnostic) : Prop :=
  ∀ diagnostic ∈ diagnostics, diagnostic.problem ≠ .nestedTooDeeply

theorem shallow_append_iff
    {lefts rights : List Diagnostic} :
    Shallow (lefts ++ rights) ↔ Shallow lefts ∧ Shallow rights :=
  List.forall_mem_append

/-- A missing parenthesis is the only complaint besides a group that is too deep. -/
theorem Reads.diagnostics_eq_nil
    {level : Level} {room : Nat} {tokens : List Token} {next : Token} {expr : Expr}
    {diagnostics : List Diagnostic}
    (reads : Reads level room tokens next expr diagnostics)
    (shallow : Shallow diagnostics)
    (none : unclosedGroups diagnostics = 0) :
    diagnostics = [] := by
  have shape := reads.diagnostics_eq (Nat.zero_add room)
  rw [none, List.replicate_zero, List.append_nil] at shape
  rw [List.eq_nil_iff_forall_not_mem]
  intro diagnostic member
  apply shallow diagnostic member
  rw [shape] at member
  obtain ⟨opening, _, rfl⟩ := List.mem_map.1 member
  rfl

/-- With the parentheses that are missing behind them, the tokens are read as the same tree, in
front of any token that closes a group or ends the input. -/
theorem Reads.supplied
    {level : Level} {room : Nat} {tokens : List Token} {next stop : Token} {expr : Expr}
    {diagnostics : List Diagnostic}
    (reads : Reads level room tokens next expr diagnostics)
    (shallow : Shallow diagnostics)
    {closers : List Token}
    (count : closers.length = unclosedGroups diagnostics)
    (areClosing : ∀ closer ∈ closers, closer.kind = .rightParen)
    (closes : stop.kind.Closes) :
    Reads level room (tokens ++ closers) stop expr [] := by
  induction reads generalizing closers stop with
  | literal isLiteral =>
      rw [List.eq_nil_of_length_eq_zero count]
      exact .literal isLiteral
  | missing =>
      rw [List.eq_nil_of_length_eq_zero count]
      exact .missing closes.not_mem_literals closes.ne_leftParen
  | @closed room opening closing next tokens inner diagnostics isOpening reads isClosing _ =>
      have none := reads.unclosedGroups_eq_zero (Or.inl isClosing)
      have clean := reads.diagnostics_eq_nil shallow none
      subst clean
      rw [List.eq_nil_of_length_eq_zero count, List.append_nil]
      exact .closed isOpening reads isClosing
  | @unclosed room opening next tokens inner diagnostics isOpening _ _ _ ih =>
      rw [unclosedGroups_append, unclosedGroups_singleton] at count
      -- The last of the parentheses closes this group, and the others those inside.
      rcases List.eq_nil_or_concat closers with rfl | ⟨others, last, rfl⟩
      · simp at count
      · rw [List.concat_eq_append] at count areClosing ⊢
        obtain ⟨othersClosing, lastClosing⟩ := List.forall_mem_append.1 areClosing
        have isClosing : last.kind = .rightParen := lastClosing last (by simp)
        have inside := ih (shallow_append_iff.1 shallow).1 (by simpa using count) othersClosing
          (Or.inl isClosing)
        simpa using Reads.closed isOpening inside isClosing
  | @deep opening next tokens isOpening skips =>
      exact absurd rfl (shallow ⟨opening.line, .nestedTooDeeply⟩ (by simp))
  | @operand room next tokens expr diagnostics notOperator _ ih =>
      refine .operand ?_ (ih shallow count areClosing closes)
      cases tokens with
      | nil =>
          cases closers with
          | nil => exact closes.not_mem_unaryOperators
          | cons closer others =>
              have isClosing := areClosing closer (List.mem_cons_self ..)
              exact TokenKind.Closes.not_mem_unaryOperators (Or.inl isClosing)
      | cons token tokens => exact notOperator
  | unary isOperator _ ih =>
      exact .unary isOperator (ih shallow count areClosing closes)
  | single _ _ ih =>
      exact .single (ih shallow count areClosing closes) (closes.not_mem_operators _)
  | @binary precedence room operator next lefts rights left right leftDiagnostics
      rightDiagnostics leftReads isOperator _ _ _ rightIh =>
      have none := leftReads.unclosedGroups_eq_zero (Or.inr ⟨precedence, isOperator⟩)
      obtain ⟨leftShallow, rightShallow⟩ := shallow_append_iff.1 shallow
      have clean := leftReads.diagnostics_eq_nil leftShallow none
      subst clean
      have rightSide := rightIh rightShallow (by simpa using count) areClosing closes
      rw [List.append_assoc, List.cons_append]
      exact .binary leftReads isOperator rightSide (closes.not_mem_operators _)

namespace Descent

/-- Where a fresh descent complains about no group that is too deep, the tokens taken, one closing
parenthesis for each that is missing and a token that ends the input are accepted as the same
tree, up to the last token. -/
theorem exists_parse_supplied
    {list : List Token}
    (ended : Ended list) :
    ∃ answer descent expr,
      parse (ofTokens list) = .ok answer descent ∧
        bestEffort? answer = some expr ∧
        (Shallow descent.diagnostics →
          ∀ (closers : List Token) (last : Token),
            closers.length = unclosedGroups descent.diagnostics →
            (∀ closer ∈ closers, closer.kind = .rightParen) →
            last.kind = .endOfInput →
            ∃ behind,
              parse (ofTokens (list.take descent.position ++ closers ++ [last])) =
                  .ok (.ok expr) behind ∧
                behind.rest = [last] ∧
                behind.diagnostics = []) := by
  obtain ⟨position, next, expr, diagnostics, parses⟩ := exists_parses ended
  refine ⟨_, _, expr, parses.parse_eq, bestEffort?_verdict expr diagnostics, ?_⟩
  intro shallow closers last count areClosing isEnd
  rw [parses.position_past]
  have closes : last.kind.Closes := Or.inr isEnd
  have reads : Reads .expression maxNesting (list.take position ++ closers) last expr [] :=
    parses.reads.supplied shallow count areClosing closes
  have supplied := reads.parses (closes.not_mem_operators .expression) []
  refine ⟨_, supplied.parse_eq, ?_, rfl⟩
  rw [supplied.drop_past, List.drop_left]

/-- The tokens of `-(nil * (`, where an operand and two parentheses are missing. -/
def brokenNegation : List Token :=
  [.minus, .leftParen, .nilWord, .star, .leftParen, .endOfInput].map Token.bare

/-- With two parentheses behind them the tokens are accepted, though no operand was supplied. -/
theorem supplied_brokenNegation :
    Ended brokenNegation ∧
      ∃ behind,
        parse (ofTokens
            ([.minus, .leftParen, .nilWord, .star, .leftParen, .rightParen, .rightParen,
              .endOfInput].map Token.bare)) =
            .ok
              (.ok (.unary (.bare .minus)
                (.grouping (.binary (.literal .nil) (.bare .star) (.grouping .empty)))))
              behind ∧
          behind.rest = [.bare .endOfInput] := by
  have ended : Ended brokenNegation := ⟨.bare .endOfInput, by decide, rfl⟩
  obtain ⟨answer, descent, expr, parses, isTree, supplied⟩ := exists_parse_supplied ended
  have run :
      parse (ofTokens brokenNegation) =
        .ok
          (.error (.rejected [⟨1, .unclosedGroup⟩, ⟨1, .unclosedGroup⟩]
            (.unary (.bare .minus)
              (.grouping (.binary (.literal .nil) (.bare .star) (.grouping .empty))))))
          ⟨(brokenNegation.take 5).reverse, [.bare .endOfInput], 0,
            [⟨1, .unclosedGroup⟩, ⟨1, .unclosedGroup⟩]⟩ := by
    decide +kernel
  rw [run] at parses
  injection parses with isAnswer isDescent
  subst isAnswer isDescent
  obtain rfl := Option.some.inj isTree
  have shallow :
      Shallow [⟨1, .unclosedGroup⟩, ⟨1, .unclosedGroup⟩] := by
    simp [Shallow]
  obtain ⟨behind, accepted, stops, _⟩ :=
    supplied shallow [.bare .rightParen, .bare .rightParen] (.bare .endOfInput) rfl (by decide) rfl
  exact ⟨ended, behind, accepted, stops⟩

end Descent

end LoxSyntax
