import LoxSyntax.Descent.Ladder

/-!
# What a step of a descent does

`descent.past tokens diagnostics` is the descent behind the given tokens of the rest, with the
given diagnostics recorded.  Each step that succeeds leads to such a descent, perhaps with more
groups open; the lemmas of this module say to which.
-/

namespace LoxSyntax.Descent

/-- The descent behind some tokens of the rest, with more diagnostics. -/
def past (descent : Descent) (tokens : List Token) (diagnostics : List Diagnostic) : Descent :=
  { descent with
    taken := tokens.reverse ++ descent.taken
    rest := descent.rest.drop tokens.length
    diagnostics := descent.diagnostics ++ diagnostics }

@[simp]
theorem past_nil (descent : Descent) : descent.past [] [] = descent := by
  simp [past]

@[simp]
theorem past_past
    (descent : Descent) (tokens later : List Token)
    (diagnostics laterDiagnostics : List Diagnostic) :
    (descent.past tokens diagnostics).past later laterDiagnostics =
      descent.past (tokens ++ later) (diagnostics ++ laterDiagnostics) := by
  simp [past]

/-- The descent inside one more group. -/
def deeper (descent : Descent) : Descent :=
  { descent with depth := descent.depth + 1 }

theorem rest_past
    {descent : Descent} {tokens rest : List Token}
    (ahead : descent.rest = tokens ++ rest) (diagnostics : List Diagnostic) :
    (descent.past tokens diagnostics).rest = rest := by
  simp [past, ahead]

theorem rest_past_singleton
    {descent : Descent} {token : Token} {rest : List Token}
    (ahead : descent.rest = token :: rest) (diagnostics : List Diagnostic) :
    (descent.past [token] diagnostics).rest = rest :=
  rest_past (by simpa using ahead) diagnostics

/-- A step that succeeds hands its answer and its descent on. -/
theorem bind_ok
    {α β : Type} {step : Step α} {continuation : α → Step β}
    {descent next : Descent} {answer : α}
    (succeeds : step descent = .ok answer next) :
    (step >>= continuation) descent = continuation answer next := by
  change EStateM.bind step continuation descent = _
  rw [EStateM.bind, succeeds]

theorem pure_apply {α : Type} (answer : α) (descent : Descent) :
    (pure answer : Step α) descent = .ok answer descent :=
  rfl

theorem get_apply (descent : Descent) :
    (get : Step Descent) descent = .ok descent descent :=
  rfl

theorem modify_apply (change : Descent → Descent) (descent : Descent) :
    (modify change : Step Unit) descent = .ok () (change descent) :=
  rfl

theorem report_apply (line : Int) (problem : Problem) (descent : Descent) :
    report line problem descent = .ok () (descent.past [] [⟨line, problem⟩]) := by
  rw [report, modify_apply]
  simp [past]

section InFrontOf

variable {descent : Descent} {token : Token} {later : List Token}

theorem current_eq
    (ahead : descent.rest = token :: later) :
    current descent = .ok token descent := by
  rw [current, ahead]

theorem check_eq
    (ahead : descent.rest = token :: later) (kind : TokenKind) :
    check kind descent = .ok (decide (token.kind = kind)) descent :=
  bind_ok (current_eq ahead)

theorem advance_eq
    (ahead : descent.rest = token :: later) (goesOn : token.kind ≠ .endOfInput) :
    advance descent = .ok token (descent.past [token] []) := by
  have moved : takeOne descent = descent.past [token] [] := by
    simp [takeOne, past, ahead]
  have look : atEnd descent = .ok false descent := by
    rw [atEnd, check_eq ahead, decide_eq_false goesOn]
  have previously :
      previous (descent.past [token] []) = .ok token (descent.past [token] []) := by
    simp [previous, past]
  rw [advance, bind_ok look]
  refine (bind_ok (modify_apply takeOne descent)).trans ?_
  rw [moved]
  exact previously

theorem accept?_eq_some
    {kinds : List TokenKind}
    (ahead : descent.rest = token :: later) (goesOn : token.kind ≠ .endOfInput)
    (member : token.kind ∈ kinds) :
    accept? kinds descent = .ok (some token) (descent.past [token] []) := by
  rw [accept?, bind_ok (current_eq ahead), if_pos member]
  change EStateM.map some advance descent = _
  rw [EStateM.map, advance_eq ahead goesOn]

theorem accept?_eq_none
    {kinds : List TokenKind}
    (ahead : descent.rest = token :: later) (notMember : token.kind ∉ kinds) :
    accept? kinds descent = .ok none descent := by
  rw [accept?, bind_ok (current_eq ahead), if_neg notMember]
  rfl

theorem expect_eq_of_kind
    {kind : TokenKind}
    (ahead : descent.rest = token :: later) (goesOn : token.kind ≠ .endOfInput)
    (expected : token.kind = kind) (problem : Problem) :
    expect kind problem descent = .ok () (descent.past [token] []) := by
  rw [expect, bind_ok (current_eq ahead), if_pos expected]
  change EStateM.map (fun _ => ()) advance descent = _
  rw [EStateM.map, advance_eq ahead goesOn]

theorem expect_eq_of_ne
    {kind : TokenKind}
    (ahead : descent.rest = token :: later)
    (unexpected : token.kind ≠ kind) (problem : Problem) :
    expect kind problem descent =
      .ok () (descent.past [] [⟨token.line, problem⟩]) := by
  rw [expect, bind_ok (current_eq ahead), if_neg unexpected, report_apply]

end InFrontOf

end LoxSyntax.Descent
