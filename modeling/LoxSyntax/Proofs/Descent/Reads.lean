import LoxSyntax.Descent.Ladder
import LoxSyntax.Proofs.Grammar

/-!
# What a level reads

`Reads level room tokens next expr diagnostics` says that a level, where at most `room` further
groups may open, takes `tokens` and stops in front of `next` with a tree and diagnostics.  What
stands behind `next` has no place in the relation: one token of lookahead decides everything.

At the level of a chain the relation holds of every beginning of the chain.  The chain is over
in front of a token that is none of its operators; each operand is read up to such a token.

Every list that holds a token to end the input can be read at every level (`exists_reads`).
-/

namespace LoxSyntax

/-- `Skips opened tokens next` when `tokens` are what is taken to close `opened` groups, in front
of `next`.  The end of the input closes them all. -/
inductive Skips : (opened : Nat) → List Token → (next : Token) → Prop
  | closed {next : Token} :
      Skips 0 [] next
  | ending {opened : Nat} {next : Token} :
      next.kind = .endOfInput →
      Skips (opened + 1) [] next
  | opening {opened : Nat} {token next : Token} {tokens : List Token} :
      token.kind = .leftParen →
      Skips (opened + 2) tokens next →
      Skips (opened + 1) (token :: tokens) next
  | closing {opened : Nat} {token next : Token} {tokens : List Token} :
      token.kind = .rightParen →
      Skips opened tokens next →
      Skips (opened + 1) (token :: tokens) next
  | plain {opened : Nat} {token next : Token} {tokens : List Token} :
      token.kind.Plain →
      Skips (opened + 1) tokens next →
      Skips (opened + 1) (token :: tokens) next

/-- What a level takes in front of a token, and what it makes of it. -/
inductive Reads : Level → (room : Nat) → List Token → (next : Token) → Expr →
    List Diagnostic → Prop
  | literal {room : Nat} {token next : Token} :
      token.kind ∈ TokenKind.literals →
      Reads .primary room [token] next (Descent.Ladder.literal token) []
  | missing {room : Nat} {next : Token} :
      next.kind ∉ TokenKind.literals →
      next.kind ≠ .leftParen →
      Reads .primary room [] next .empty []
  | closed {room : Nat} {opening closing next : Token} {tokens : List Token} {inner : Expr}
      {diagnostics : List Diagnostic} :
      opening.kind = .leftParen →
      Reads .expression room tokens closing inner diagnostics →
      closing.kind = .rightParen →
      Reads .primary (room + 1) (opening :: tokens ++ [closing]) next (.grouping inner)
        diagnostics
  | unclosed {room : Nat} {opening next : Token} {tokens : List Token} {inner : Expr}
      {diagnostics : List Diagnostic} :
      opening.kind = .leftParen →
      Reads .expression room tokens next inner diagnostics →
      next.kind ∉ Level.expression.operators →
      next.kind ≠ .rightParen →
      Reads .primary (room + 1) (opening :: tokens) next (.grouping inner)
        (diagnostics ++ [⟨next.line, .unclosedGroup⟩])
  | deep {opening next : Token} {tokens : List Token} :
      opening.kind = .leftParen →
      Skips 1 tokens next →
      Reads .primary 0 (opening :: tokens) next .empty [⟨opening.line, .nestedTooDeeply⟩]
  | operand {room : Nat} {next : Token} {tokens : List Token} {expr : Expr}
      {diagnostics : List Diagnostic} :
      (tokens.headD next).kind ∉ TokenKind.unaryOperators →
      Reads .primary room tokens next expr diagnostics →
      Reads .unary room tokens next expr diagnostics
  | unary {room : Nat} {operator next : Token} {tokens : List Token} {right : Expr}
      {diagnostics : List Diagnostic} :
      operator.kind ∈ TokenKind.unaryOperators →
      Reads .unary room tokens next right diagnostics →
      Reads .unary room (operator :: tokens) next (.unary operator right) diagnostics
  | single {precedence : Precedence} {room : Nat} {next : Token} {tokens : List Token}
      {expr : Expr} {diagnostics : List Diagnostic} :
      Reads precedence.operand room tokens next expr diagnostics →
      next.kind ∉ precedence.operand.operators →
      Reads (.chain precedence) room tokens next expr diagnostics
  | binary {precedence : Precedence} {room : Nat} {operator next : Token}
      {lefts rights : List Token} {left right : Expr}
      {leftDiagnostics rightDiagnostics : List Diagnostic} :
      Reads (.chain precedence) room lefts operator left leftDiagnostics →
      operator.kind ∈ precedence.operators →
      Reads precedence.operand room rights next right rightDiagnostics →
      next.kind ∉ precedence.operand.operators →
      Reads (.chain precedence) room (lefts ++ operator :: rights) next
        (.binary left operator right) (leftDiagnostics ++ rightDiagnostics)

/-- No operator that binds tighter than a level can continue what the level has read. -/
theorem Reads.not_mem_operators_of_rank_lt
    {level : Level} {room : Nat} {tokens : List Token} {next : Token} {expr : Expr}
    {diagnostics : List Diagnostic}
    (reads : Reads level room tokens next expr diagnostics) (tighter : Precedence)
    (rankLt : level.rank < tighter.rank) :
    next.kind ∉ tighter.operators := by
  have bound : tighter.rank ≤ 4 := by cases tighter <;> decide
  induction reads with
  | single _ stops ih =>
      obtain equality | further := Precedence.operand_eq_or_rank_lt rankLt
      · rw [equality] at stops
        exact stops
      · exact ih further
  | binary _ _ _ stops _ ih =>
      obtain equality | further := Precedence.operand_eq_or_rank_lt rankLt
      · rw [equality] at stops
        exact stops
      · exact ih further
  | _ =>
      simp only [Level.rank] at rankLt
      omega

/-- No operator at all can continue an expression that has been read to its end. -/
theorem Reads.not_mem_operators
    {room : Nat} {tokens : List Token} {next : Token} {expr : Expr}
    {diagnostics : List Diagnostic}
    (reads : Reads .expression room tokens next expr diagnostics)
    (stops : next.kind ∉ Level.expression.operators) (precedence : Precedence) :
    next.kind ∉ precedence.operators := by
  by_cases weakest : precedence = .equality
  · rw [weakest]
    exact stops
  · refine reads.not_mem_operators_of_rank_lt precedence ?_
    cases precedence <;> first | decide | contradiction

/-! ## Every list can be read -/

/-- Whether a list holds a token that ends the input. -/
def Ended (tokens : List Token) : Prop :=
  ∃ token ∈ tokens, token.kind = .endOfInput

theorem not_ended_nil : ¬ Ended [] := by
  simp [Ended]

theorem ended_cons_iff
    {token : Token} {tokens : List Token} :
    Ended (token :: tokens) ↔ token.kind = .endOfInput ∨ Ended tokens := by
  simp [Ended]

theorem ended_append_iff
    {lefts rights : List Token} :
    Ended (lefts ++ rights) ↔ Ended lefts ∨ Ended rights := by
  simp [Ended, or_and_right, exists_or]

theorem ended_reverse_iff
    {tokens : List Token} :
    Ended tokens.reverse ↔ Ended tokens := by
  simp [Ended]

theorem Ended.of_cons
    {token : Token} {tokens : List Token}
    (ended : Ended (token :: tokens)) (goesOn : token.kind ≠ .endOfInput) :
    Ended tokens := by
  obtain ⟨last, member, isEnd⟩ := ended
  rcases List.mem_cons.1 member with rfl | later
  · exact absurd isEnd goesOn
  · exact ⟨last, later, isEnd⟩

/-- A level can be read to its end from the beginning of a list. -/
def Readable (level : Level) (room : Nat) (list : List Token) : Prop :=
  ∃ tokens next later expr diagnostics,
    list = tokens ++ next :: later ∧
      Ended (next :: later) ∧
      Reads level room tokens next expr diagnostics ∧
      next.kind ∉ level.operators

theorem exists_skips
    {list : List Token} (ended : Ended list) (opened : Nat) :
    ∃ tokens next later,
      list = tokens ++ next :: later ∧
        Ended (next :: later) ∧
        Skips opened tokens next := by
  induction list generalizing opened with
  | nil => simp [Ended] at ended
  | cons token rest ih =>
      cases opened with
      | zero => exact ⟨[], token, rest, rfl, ended, .closed⟩
      | succ opened =>
          by_cases isEnd : token.kind = .endOfInput
          · exact ⟨[], token, rest, rfl, ended, .ending isEnd⟩
          have behind {openBehind : Nat}
              (skips : ∀ {tokens next}, Skips openBehind tokens next →
                Skips (opened + 1) (token :: tokens) next) :
              ∃ tokens next later,
                token :: rest = tokens ++ next :: later ∧
                  Ended (next :: later) ∧
                  Skips (opened + 1) tokens next := by
            obtain ⟨tokens, next, later, equality, laterEnded, skipsRest⟩ :=
              ih (ended.of_cons isEnd) openBehind
            refine ⟨token :: tokens, next, later, ?_, laterEnded, skips skipsRest⟩
            rw [equality, List.cons_append]
          by_cases isOpening : token.kind = .leftParen
          · exact behind (.opening isOpening)
          by_cases isClosing : token.kind = .rightParen
          · exact behind (.closing isClosing)
          · exact behind (.plain ⟨isOpening, isClosing, isEnd⟩)

theorem Ended.exists_cons {list : List Token} (ended : Ended list) :
    ∃ next later, list = next :: later := by
  obtain ⟨last, member, _⟩ := ended
  exact List.exists_cons_of_ne_nil (List.ne_nil_of_mem member)

namespace Readable

variable {room : Nat} {list : List Token}

/-- A primary can be read wherever groups can. -/
theorem primary
    (groups : ∀ opening rest, opening.kind = .leftParen → Ended rest →
      Readable .primary room (opening :: rest))
    (ended : Ended list) :
    Readable .primary room list := by
  obtain ⟨token, rest, rfl⟩ := ended.exists_cons
  by_cases isLiteral : token.kind ∈ TokenKind.literals
  · have goesOn := (TokenKind.plain_of_mem_literals isLiteral).goesOn
    obtain ⟨next, later, rfl⟩ := (ended.of_cons goesOn).exists_cons
    exact ⟨[token], next, later, _, _, rfl, ended.of_cons goesOn, .literal isLiteral,
      List.not_mem_nil⟩
  by_cases isOpening : token.kind = .leftParen
  · refine groups token rest isOpening (ended.of_cons ?_)
    rw [isOpening]
    decide
  · exact ⟨[], token, rest, _, _, rfl, ended, .missing isLiteral isOpening, List.not_mem_nil⟩

theorem group_zero
    {opening : Token} {rest : List Token}
    (isOpening : opening.kind = .leftParen) (ended : Ended rest) :
    Readable .primary 0 (opening :: rest) := by
  obtain ⟨tokens, next, later, rfl, laterEnded, skips⟩ := exists_skips ended 1
  exact ⟨opening :: tokens, next, later, _, _, rfl, laterEnded, .deep isOpening skips,
    List.not_mem_nil⟩

theorem group_succ
    (expressions : ∀ {list}, Ended list → Readable .expression room list)
    {opening : Token} {rest : List Token}
    (isOpening : opening.kind = .leftParen) (ended : Ended rest) :
    Readable .primary (room + 1) (opening :: rest) := by
  obtain ⟨tokens, next, later, inner, diagnostics, rfl, laterEnded, reads, stops⟩ :=
    expressions ended
  by_cases isClosing : next.kind = .rightParen
  · have goesOn : next.kind ≠ .endOfInput := by
      rw [isClosing]
      decide
    obtain ⟨behind, further, rfl⟩ := (laterEnded.of_cons goesOn).exists_cons
    exact ⟨opening :: tokens ++ [next], behind, further, _, _, by simp,
      laterEnded.of_cons goesOn, .closed isOpening reads isClosing, List.not_mem_nil⟩
  · exact ⟨opening :: tokens, next, later, _, _, rfl, laterEnded,
      .unclosed isOpening reads stops isClosing, List.not_mem_nil⟩

theorem unary
    (primaries : ∀ {list}, Ended list → Readable .primary room list)
    (ended : Ended list) :
    Readable .unary room list := by
  induction list with
  | nil => simp [Ended] at ended
  | cons token rest ih =>
      by_cases isOperator : token.kind ∈ TokenKind.unaryOperators
      · have goesOn := (TokenKind.plain_of_mem_unaryOperators isOperator).goesOn
        obtain ⟨tokens, next, later, right, diagnostics, rfl, laterEnded, reads, stops⟩ :=
          ih (ended.of_cons goesOn)
        exact ⟨token :: tokens, next, later, _, _, rfl, laterEnded, .unary isOperator reads,
          stops⟩
      · obtain ⟨tokens, next, later, expr, diagnostics, equality, laterEnded, reads, stops⟩ :=
          primaries ended
        have first : tokens.headD next = token := by
          have heads := congrArg (List.headD · next) equality
          cases tokens <;> simpa using heads.symm
        refine ⟨tokens, next, later, expr, diagnostics, equality, laterEnded, ?_, stops⟩
        exact .operand (by rw [first]; exact isOperator) reads

/-- The beginning of a chain can be continued to its end. -/
theorem chain_of_reads
    {precedence : Precedence}
    (operands : ∀ {list}, Ended list → Readable precedence.operand room list)
    {tokens later : List Token} {next : Token} {expr : Expr} {diagnostics : List Diagnostic}
    (reads : Reads (.chain precedence) room tokens next expr diagnostics)
    (ended : Ended (next :: later)) :
    Readable (.chain precedence) room (tokens ++ next :: later) := by
  by_cases isOperator : next.kind ∈ precedence.operators
  · have goesOn := (Precedence.plain_of_mem isOperator).goesOn
    obtain ⟨rights, following, further, right, rightDiagnostics, equality, furtherEnded,
      rightReads, stops⟩ := operands (ended.of_cons goesOn)
    have shorter : further.length < later.length := by
      rw [equality, List.length_append, List.length_cons]
      omega
    have extended := chain_of_reads operands (.binary reads isOperator rightReads stops)
      furtherEnded
    rw [equality]
    simpa using extended
  · exact ⟨tokens, next, later, expr, diagnostics, rfl, ended, reads, isOperator⟩
termination_by later.length

theorem chain
    {precedence : Precedence}
    (operands : ∀ {list}, Ended list → Readable precedence.operand room list)
    (ended : Ended list) :
    Readable (.chain precedence) room list := by
  obtain ⟨tokens, next, later, expr, diagnostics, rfl, laterEnded, reads, stops⟩ :=
    operands ended
  exact chain_of_reads operands (.single reads stops) laterEnded

/-- Every level can be read wherever primaries can. -/
theorem of_primaries
    (primaries : ∀ {list}, Ended list → Readable .primary room list)
    (level : Level) (ended : Ended list) :
    Readable level room list := by
  have factors {list} : Ended list → Readable (.chain .factor) room list :=
    chain (unary primaries)
  have terms {list} : Ended list → Readable (.chain .term) room list :=
    chain factors
  have comparisons {list} : Ended list → Readable (.chain .comparison) room list :=
    chain terms
  cases level with
  | chain precedence =>
      cases precedence with
      | equality => exact chain comparisons ended
      | comparison => exact comparisons ended
      | term => exact terms ended
      | factor => exact factors ended
  | unary => exact unary primaries ended
  | primary => exact primaries ended

end Readable

/-- Every level can be read from the beginning of every list that ends. -/
theorem exists_reads
    (level : Level) (room : Nat) {list : List Token} (ended : Ended list) :
    Readable level room list := by
  induction room generalizing level list with
  | zero =>
      have primaries {list} : Ended list → Readable .primary 0 list :=
        .primary fun _ _ isOpening => .group_zero isOpening
      exact .of_primaries primaries level ended
  | succ room ih =>
      have primaries {list} : Ended list → Readable .primary (room + 1) list :=
        .primary fun _ _ isOpening => .group_succ (ih .expression) isOpening
      exact .of_primaries primaries level ended

end LoxSyntax
