import LoxSyntax.Proofs.Descent.Run

/-!
# Open and skipped groups

The parentheses of a list of tokens say which groups are open at each of its places, and which
of them are too deep: one that opens while `limit` groups are open is skipped, from its opening
parenthesis through the closing one, with everything in between.

`Groups.kept` leaves out the tokens of skipped groups.  What a level reads opens as many groups
as it closes, apart from those whose parenthesis is missing (`Reads.behind`).
-/

namespace LoxSyntax

/-- The groups around a place in a list of tokens. -/
@[ext]
structure Groups where
  /-- How many groups are open and not skipped. -/
  opened : Nat
  /-- How many parentheses are to be closed until a skipped group ends; none outside of one. -/
  skipped : Nat
deriving DecidableEq, Repr

namespace Groups

/-- The groups behind a token of the given kind. -/
def step (limit : Nat) (groups : Groups) (kind : TokenKind) : Groups :=
  match kind, groups.skipped with
  | .leftParen, 0 =>
      if groups.opened < limit then { groups with opened := groups.opened + 1 }
      else { groups with skipped := 1 }
  | .leftParen, skipped + 1 => { groups with skipped := skipped + 2 }
  | .rightParen, 0 => { groups with opened := groups.opened - 1 }
  | .rightParen, skipped + 1 => { groups with skipped := skipped }
  | _, _ => groups

/-- The groups behind all tokens of a list. -/
def behind (limit : Nat) : Groups → List Token → Groups
  | groups, [] => groups
  | groups, token :: rest => behind limit (groups.step limit token.kind) rest

/-- The tokens that belong to no skipped group. -/
def kept (limit : Nat) : Groups → List Token → List Token
  | _, [] => []
  | groups, token :: rest =>
      let next := groups.step limit token.kind
      if groups.skipped = 0 ∧ next.skipped = 0 then token :: kept limit next rest
      else kept limit next rest

variable {limit : Nat}

theorem behind_append (groups : Groups) (lefts rights : List Token) :
    groups.behind limit (lefts ++ rights) =
      (groups.behind limit lefts).behind limit rights := by
  induction lefts generalizing groups with
  | nil => rfl
  | cons token rest ih => exact ih (groups.step limit token.kind)

theorem kept_append (groups : Groups) (lefts rights : List Token) :
    groups.kept limit (lefts ++ rights) =
      groups.kept limit lefts ++ (groups.behind limit lefts).kept limit rights := by
  induction lefts generalizing groups with
  | nil => rfl
  | cons token rest ih =>
      simp only [List.cons_append, kept, behind, ih]
      split <;> rfl

theorem step_of_plain
    {kind : TokenKind} (plain : kind.Plain) (groups : Groups) :
    groups.step limit kind = groups := by
  obtain ⟨notOpening, notClosing, _⟩ := plain
  cases kind <;> first | rfl | contradiction

theorem kept_cons_of_plain
    {token : Token} (plain : token.kind.Plain) (opened : Nat) (rest : List Token) :
    kept limit ⟨opened, 0⟩ (token :: rest) = token :: kept limit ⟨opened, 0⟩ rest := by
  simp [kept, step_of_plain plain]

theorem behind_cons_of_opening
    {opening : Token} {opened : Nat} (isOpening : opening.kind = .leftParen)
    (shallow : opened < limit) (rest : List Token) :
    behind limit ⟨opened, 0⟩ (opening :: rest) = behind limit ⟨opened + 1, 0⟩ rest := by
  simp [behind, step, isOpening, shallow]

theorem kept_cons_of_opening
    {opening : Token} {opened : Nat} (isOpening : opening.kind = .leftParen)
    (shallow : opened < limit) (rest : List Token) :
    kept limit ⟨opened, 0⟩ (opening :: rest) = opening :: kept limit ⟨opened + 1, 0⟩ rest := by
  simp [kept, step, isOpening, shallow]

theorem kept_cons_of_deep
    {opening : Token} {opened : Nat} (isOpening : opening.kind = .leftParen)
    (deep : limit ≤ opened) (rest : List Token) :
    kept limit ⟨opened, 0⟩ (opening :: rest) = kept limit ⟨opened, 1⟩ rest := by
  simp [kept, step, isOpening, Nat.not_lt.2 deep]

theorem kept_singleton_of_closing
    {closing : Token} (isClosing : closing.kind = .rightParen) (opened : Nat) :
    kept limit ⟨opened, 0⟩ [closing] = [closing] := by
  simp [kept, step, isClosing]

end Groups

/-- Behind skipped tokens no group is being skipped any more, unless the input ends there. -/
theorem Skips.behind
    {skipped : Nat} {tokens : List Token} {next : Token}
    (skips : Skips skipped tokens next) (limit opened : Nat) :
    (Groups.behind limit ⟨opened, skipped⟩ tokens).opened = opened ∧
      (next.kind ≠ .endOfInput → (Groups.behind limit ⟨opened, skipped⟩ tokens).skipped = 0) := by
  induction skips with
  | closed =>
      refine ⟨rfl, ?_⟩
      intro _
      rfl
  | ending isEnd =>
      refine ⟨rfl, ?_⟩
      intro goesOn
      exact absurd isEnd goesOn
  | opening isOpening _ ih => simpa [Groups.behind, Groups.step, isOpening] using ih
  | closing isClosing _ ih => simpa [Groups.behind, Groups.step, isClosing] using ih
  | plain plain _ ih => simpa [Groups.behind, Groups.step_of_plain plain] using ih

theorem Skips.kept
    {skipped : Nat} {tokens : List Token} {next : Token}
    (skips : Skips skipped tokens next) (limit opened : Nat) :
    Groups.kept limit ⟨opened, skipped⟩ tokens = [] := by
  induction skips with
  | closed => rfl
  | ending => rfl
  | opening isOpening _ ih => simpa [Groups.kept, Groups.step, isOpening] using ih
  | closing isClosing _ ih => simpa [Groups.kept, Groups.step, isClosing] using ih
  | plain plain _ ih => simpa [Groups.kept, Groups.step_of_plain plain] using ih

/-- How many groups are reported to lack their closing parenthesis. -/
def unclosedGroups (diagnostics : List Diagnostic) : Nat :=
  diagnostics.countP fun diagnostic => diagnostic.problem = .unclosedGroup

@[simp]
theorem unclosedGroups_nil : unclosedGroups [] = 0 :=
  rfl

@[simp]
theorem unclosedGroups_append (lefts rights : List Diagnostic) :
    unclosedGroups (lefts ++ rights) = unclosedGroups lefts + unclosedGroups rights :=
  List.countP_append ..

theorem unclosedGroups_singleton (line : Int) :
    unclosedGroups [⟨line, .unclosedGroup⟩] = 1 :=
  rfl

/-- Once a parenthesis is missing, nothing is read any more: the next token closes no group and
is no operator. -/
theorem Reads.stuck_of_unclosed
    {level : Level} {room : Nat} {tokens : List Token} {next : Token} {expr : Expr}
    {diagnostics : List Diagnostic}
    (reads : Reads level room tokens next expr diagnostics)
    (unclosed : unclosedGroups diagnostics ≠ 0) :
    next.kind ≠ .rightParen ∧ ∀ precedence : Precedence, next.kind ∉ precedence.operators := by
  induction reads with
  | literal | missing => exact absurd rfl unclosed
  | closed _ _ isClosing ih => exact absurd isClosing (ih unclosed).1
  | unclosed _ reads stops notClosing _ => exact ⟨notClosing, reads.not_mem_operators stops⟩
  | deep => exact absurd rfl unclosed
  | operand _ _ ih | unary _ _ ih | single _ _ ih => exact ih unclosed
  | @binary precedence room operator next lefts rights left right leftDiagnostics
      rightDiagnostics _ isOperator _ _ leftIh rightIh =>
      rw [unclosedGroups_append] at unclosed
      apply rightIh
      intro rightNone
      have leftUnclosed : unclosedGroups leftDiagnostics ≠ 0 := by
        rw [rightNone, Nat.add_zero] at unclosed
        exact unclosed
      exact (leftIh leftUnclosed).2 _ isOperator

theorem Reads.unclosedGroups_eq_zero
    {level : Level} {room : Nat} {tokens : List Token} {next : Token} {expr : Expr}
    {diagnostics : List Diagnostic}
    (reads : Reads level room tokens next expr diagnostics)
    (continues : next.kind = .rightParen ∨
      ∃ precedence : Precedence, next.kind ∈ precedence.operators) :
    unclosedGroups diagnostics = 0 := by
  apply Decidable.byContradiction
  intro unclosed
  obtain ⟨notClosing, notOperator⟩ := reads.stuck_of_unclosed unclosed
  rcases continues with isClosing | ⟨precedence, isOperator⟩
  · exact notClosing isClosing
  · exact notOperator precedence isOperator

/-- Behind what a level reads those groups are open whose parenthesis is missing, and none is
being skipped unless the input ends there. -/
theorem Reads.behind
    {level : Level} {room : Nat} {tokens : List Token} {next : Token} {expr : Expr}
    {diagnostics : List Diagnostic}
    (reads : Reads level room tokens next expr diagnostics)
    {limit opened : Nat} (within : opened + room = limit) :
    (Groups.behind limit ⟨opened, 0⟩ tokens).opened = opened + unclosedGroups diagnostics ∧
      (next.kind ≠ .endOfInput → (Groups.behind limit ⟨opened, 0⟩ tokens).skipped = 0) := by
  induction reads generalizing opened with
  | literal isLiteral =>
      have plain := TokenKind.plain_of_mem_literals isLiteral
      simp [Groups.behind, Groups.step_of_plain plain]
  | missing => simp [Groups.behind]
  | @closed room opening closing next tokens inner diagnostics isOpening reads isClosing ih =>
      have goesOn : closing.kind ≠ .endOfInput := by
        rw [isClosing]
        decide
      have none := reads.unclosedGroups_eq_zero (Or.inl isClosing)
      have within : opened + 1 + room = limit := by omega
      obtain ⟨innerOpened, innerSkipped⟩ := ih within
      have inside : Groups.behind limit ⟨opened + 1, 0⟩ tokens = ⟨opened + 1, 0⟩ :=
        Groups.ext (by rw [innerOpened, none, Nat.add_zero]) (innerSkipped goesOn)
      rw [List.cons_append, Groups.behind_cons_of_opening isOpening (by omega),
        Groups.behind_append, inside]
      simp [Groups.behind, Groups.step, isClosing, none]
  | @unclosed room opening next tokens inner diagnostics isOpening _ _ _ ih =>
      have within : opened + 1 + room = limit := by omega
      obtain ⟨innerOpened, innerSkipped⟩ := ih within
      rw [Groups.behind_cons_of_opening isOpening (by omega), unclosedGroups_append]
      refine ⟨?_, innerSkipped⟩
      rw [innerOpened, unclosedGroups_singleton]
      omega
  | deep isOpening skips =>
      simpa [Groups.behind, Groups.step, isOpening, unclosedGroups, ← within] using
        skips.behind limit opened
  | operand _ _ ih => exact ih within
  | unary isOperator _ ih =>
      have plain := TokenKind.plain_of_mem_unaryOperators isOperator
      simpa [Groups.behind, Groups.step_of_plain plain] using ih within
  | single _ _ ih => exact ih within
  | @binary precedence room operator next lefts rights left right leftDiagnostics
      rightDiagnostics leftReads isOperator _ _ leftIh rightIh =>
      have plain := Precedence.plain_of_mem isOperator
      have none := leftReads.unclosedGroups_eq_zero (Or.inr ⟨precedence, isOperator⟩)
      obtain ⟨leftOpened, leftSkipped⟩ := leftIh within
      have between : Groups.behind limit ⟨opened, 0⟩ lefts = ⟨opened, 0⟩ :=
        Groups.ext (by rw [leftOpened, none, Nat.add_zero]) (leftSkipped plain.goesOn)
      rw [Groups.behind_append, between, Groups.behind, Groups.step_of_plain plain,
        unclosedGroups_append, none, Nat.zero_add]
      exact rightIh within

/-- Where a reading is continued the groups are those in front of it. -/
theorem Reads.behind_eq
    {level : Level} {room : Nat} {tokens : List Token} {next : Token} {expr : Expr}
    {diagnostics : List Diagnostic}
    (reads : Reads level room tokens next expr diagnostics)
    {limit opened : Nat} (within : opened + room = limit)
    (continues : next.kind = .rightParen ∨
      ∃ precedence : Precedence, next.kind ∈ precedence.operators) :
    Groups.behind limit ⟨opened, 0⟩ tokens = ⟨opened, 0⟩ := by
  have goesOn : next.kind ≠ .endOfInput := by
    rcases continues with isClosing | ⟨precedence, isOperator⟩
    · rw [isClosing]
      decide
    · exact (Precedence.plain_of_mem isOperator).goesOn
  obtain ⟨opens, skips⟩ := reads.behind within
  exact Groups.ext (by rw [opens, reads.unclosedGroups_eq_zero continues, Nat.add_zero])
    (skips goesOn)

end LoxSyntax
