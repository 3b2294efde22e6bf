import LoxSyntax.Proofs.Descent.Run

/-!
# Operations in any order

Besides a whole expression, a descent reads each level of the ladder on demand, and it answers
to the single looks and steps that these are made of.

On a list that ends, none of these operations fails: each takes tokens in front of the first one
that ends the input, adds diagnostics behind those so far and leaves the depth as it was
(`Operation.proceeds`).  So does every sequence of them (`OnCourse.foldl`).
-/

namespace LoxSyntax

namespace Skips

theorem not_ended
    {opened : Nat} {tokens : List Token} {next : Token}
    (skips : Skips opened tokens next) :
    ¬ Ended tokens := by
  induction skips with
  | closed => exact not_ended_nil
  | ending => exact not_ended_nil
  | opening isOpening _ ih => simp [ended_cons_iff, isOpening, ih]
  | closing isClosing _ ih => simp [ended_cons_iff, isClosing, ih]
  | plain plain _ ih => simp [ended_cons_iff, plain.goesOn, ih]

end Skips

/-- Nothing that is read ends the input. -/
theorem Reads.not_ended
    {level : Level} {room : Nat} {tokens : List Token} {next : Token} {expr : Expr}
    {diagnostics : List Diagnostic}
    (reads : Reads level room tokens next expr diagnostics) :
    ¬ Ended tokens := by
  induction reads with
  | literal isLiteral =>
      simp [ended_cons_iff, not_ended_nil, (TokenKind.plain_of_mem_literals isLiteral).goesOn]
  | missing => exact not_ended_nil
  | closed isOpening _ isClosing ih =>
      simp [ended_cons_iff, ended_append_iff, not_ended_nil, isOpening, isClosing, ih]
  | unclosed isOpening _ _ _ ih => simp [ended_cons_iff, isOpening, ih]
  | deep isOpening skips => simp [ended_cons_iff, isOpening, skips.not_ended]
  | operand _ _ ih => exact ih
  | unary isOperator _ ih =>
      simp [ended_cons_iff, (TokenKind.plain_of_mem_unaryOperators isOperator).goesOn, ih]
  | single _ _ ih => exact ih
  | binary _ isOperator _ _ leftIh rightIh =>
      simp [ended_cons_iff, ended_append_iff, (Precedence.plain_of_mem isOperator).goesOn,
        leftIh, rightIh]

namespace Descent

/-- On a list that ends, the step answers and takes tokens in front of the end only. -/
def Proceeds {α : Type} (step : Step α) : Prop :=
  ∀ descent : Descent,
    Ended descent.rest →
      ∃ answer tokens diagnostics,
        tokens <+: descent.rest ∧
          ¬ Ended tokens ∧
          step descent = .ok answer (descent.past tokens diagnostics)

section Proceeds

variable {α β : Type}

/-- A step that only looks. -/
theorem Proceeds.of_look
    {step : Step α}
    (looks : ∀ descent : Descent,
      Ended descent.rest → ∃ answer, step descent = .ok answer descent) :
    Proceeds step := by
  intro descent ended
  obtain ⟨answer, equality⟩ := looks descent ended
  refine ⟨answer, [], [], List.nil_prefix, not_ended_nil, ?_⟩
  rw [past_nil]
  exact equality

theorem Proceeds.discard
    {step : Step α}
    (proceeds : Proceeds step) :
    Proceeds (discard step) := by
  intro descent ended
  obtain ⟨answer, tokens, diagnostics, isPrefix, inside, equality⟩ := proceeds descent ended
  refine ⟨(), tokens, diagnostics, isPrefix, inside, ?_⟩
  change EStateM.map (fun _ => ()) step descent = _
  rw [EStateM.map, equality]

theorem proceeds_current : Proceeds current := by
  apply Proceeds.of_look
  intro descent ended
  obtain ⟨token, later, ahead⟩ := ended.exists_cons
  exact ⟨token, current_eq ahead⟩

theorem proceeds_check (kind : TokenKind) : Proceeds (check kind) := by
  apply Proceeds.of_look
  intro descent ended
  obtain ⟨token, later, ahead⟩ := ended.exists_cons
  exact ⟨_, check_eq ahead kind⟩

/-- At the beginning of a list the last token stands for the one taken last. -/
theorem exists_previous
    {descent : Descent}
    (ended : Ended descent.rest) :
    ∃ token, previous descent = .ok token descent := by
  cases taken : descent.taken with
  | cons token others =>
      refine ⟨token, ?_⟩
      simp [previous, taken]
  | nil =>
      obtain ⟨first, later, ahead⟩ := ended.exists_cons
      have nonempty : descent.rest ≠ [] := by
        rw [ahead]
        exact List.cons_ne_nil first later
      refine ⟨descent.rest.getLast nonempty, ?_⟩
      simp [previous, taken, List.getLast?_eq_some_getLast nonempty]

theorem proceeds_previous : Proceeds previous := by
  apply Proceeds.of_look
  intro descent ended
  exact exists_previous ended

theorem proceeds_advance : Proceeds advance := by
  intro descent ended
  obtain ⟨token, later, ahead⟩ := ended.exists_cons
  by_cases isEnd : token.kind = .endOfInput
  · obtain ⟨last, previously⟩ := exists_previous ended
    have look : atEnd descent = .ok true descent := by
      rw [atEnd, check_eq ahead, decide_eq_true isEnd]
    refine ⟨last, [], [], List.nil_prefix, not_ended_nil, ?_⟩
    rw [advance, bind_ok look, past_nil]
    exact previously
  · refine ⟨token, [token], [], ?_, ?_, advance_eq ahead isEnd⟩
    · rw [ahead]
      exact ⟨later, rfl⟩
    · simp [ended_cons_iff, not_ended_nil, isEnd]

theorem proceeds_accept (kinds : List TokenKind) : Proceeds (accept? kinds) := by
  intro descent ended
  obtain ⟨token, later, ahead⟩ := ended.exists_cons
  by_cases member : token.kind ∈ kinds
  · obtain ⟨answer, tokens, diagnostics, isPrefix, inside, equality⟩ :=
      proceeds_advance descent ended
    refine ⟨some answer, tokens, diagnostics, isPrefix, inside, ?_⟩
    rw [accept?, bind_ok (current_eq ahead), if_pos member]
    change EStateM.map some advance descent = _
    rw [EStateM.map, equality]
  · refine ⟨none, [], [], List.nil_prefix, not_ended_nil, ?_⟩
    rw [accept?_eq_none ahead member, past_nil]

theorem proceeds_expect
    (kind : TokenKind) (problem : Problem) :
    Proceeds (expect kind problem) := by
  intro descent ended
  obtain ⟨token, later, ahead⟩ := ended.exists_cons
  by_cases expected : token.kind = kind
  · have proceeds := proceeds_advance.discard descent ended
    rw [expect, bind_ok (current_eq ahead), if_pos expected]
    exact proceeds
  · exact ⟨(), [], _, List.nil_prefix, not_ended_nil, expect_eq_of_ne ahead expected problem⟩

theorem proceeds_skipGroup : Proceeds skipGroup := by
  intro descent ended
  obtain ⟨tokens, next, later, ahead, _, skips⟩ := exists_skips ended 1
  refine ⟨(), tokens, [], ?_, skips.not_ended, skipGroup_eq ahead skips⟩
  rw [ahead]
  exact List.prefix_append _ _

/-- Every level proceeds, whatever the depth. -/
theorem proceeds_atDepth (level : Level) : Proceeds (atDepth fun group => level.step group) := by
  intro descent ended
  obtain ⟨tokens, next, later, expr, diagnostics, ahead, _, reads, stops⟩ :=
    exists_reads level (maxNesting - descent.depth) ended
  refine ⟨expr, tokens, diagnostics, ?_, reads.not_ended, ?_⟩
  · rw [ahead]
    exact List.prefix_append _ _
  · exact (bind_ok (get_apply descent)).trans
      ((reads.level_resumes ahead).step_eq (rest_past ahead _) stops)

theorem proceeds_parse : Proceeds parse := by
  intro descent ended
  obtain ⟨expr, tokens, diagnostics, isPrefix, inside, equality⟩ :=
    proceeds_atDepth .expression descent ended
  refine ⟨verdict expr (descent.diagnostics ++ diagnostics), tokens, diagnostics, isPrefix,
    inside, ?_⟩
  have reading : expression descent = .ok expr (descent.past tokens diagnostics) := equality
  rw [parse, bind_ok reading]
  exact bind_ok (get_apply _)

end Proceeds

/-! ## Operations -/

/-- What can be asked of a descent. -/
inductive Operation where
  | parse
  | expression | equality | comparison | term | factor | unary | primary
  | skipGroup
  | current | previous | advance | atEnd
  | check (kind : TokenKind)
  | accept (kinds : List TokenKind)
  | expect (kind : TokenKind) (problem : Problem)
deriving DecidableEq, Repr

namespace Operation

/-- An operation as a step, without its answer. -/
def step : Operation → Step Unit
  | parse => discard Descent.parse
  | expression => discard Descent.expression
  | equality => discard Descent.equality
  | comparison => discard Descent.comparison
  | term => discard Descent.term
  | factor => discard Descent.factor
  | unary => discard Descent.unary
  | primary => discard Descent.primary
  | skipGroup => Descent.skipGroup
  | current => discard Descent.current
  | previous => discard Descent.previous
  | advance => discard Descent.advance
  | atEnd => discard Descent.atEnd
  | check kind => discard (Descent.check kind)
  | accept kinds => discard (Descent.accept? kinds)
  | expect kind problem => Descent.expect kind problem

/-- The descent behind an operation, also where it fails. -/
def applied (descent : Descent) (operation : Operation) : Descent :=
  match operation.step descent with
  | .ok _ behind => behind
  | .error _ behind => behind

theorem proceeds (operation : Operation) : Proceeds operation.step := by
  cases operation with
  | parse => exact proceeds_parse.discard
  | expression => exact (proceeds_atDepth .expression).discard
  | equality => exact (proceeds_atDepth (.chain .equality)).discard
  | comparison => exact (proceeds_atDepth (.chain .comparison)).discard
  | term => exact (proceeds_atDepth (.chain .term)).discard
  | factor => exact (proceeds_atDepth (.chain .factor)).discard
  | unary => exact (proceeds_atDepth .unary).discard
  | primary => exact (proceeds_atDepth .primary).discard
  | skipGroup => exact proceeds_skipGroup
  | current => exact proceeds_current.discard
  | previous => exact proceeds_previous.discard
  | advance => exact proceeds_advance.discard
  | atEnd => exact (proceeds_check .endOfInput).discard
  | check kind => exact (proceeds_check kind).discard
  | accept kinds => exact (proceeds_accept kinds).discard
  | expect kind problem => exact proceeds_expect kind problem

end Operation

/-- A descent outside of all groups that has taken a part of `list` in front of the end. -/
structure OnCourse (list : List Token) (descent : Descent) : Prop where
  whole : descent.taken.reverse ++ descent.rest = list
  inside : ¬ Ended descent.taken
  ended : Ended descent.rest
  outside : descent.depth = 0

namespace OnCourse

variable {list : List Token} {descent : Descent}

theorem ofTokens
    (ended : Ended list) :
    OnCourse list (Descent.ofTokens list) :=
  ⟨rfl, not_ended_nil, ended, rfl⟩

theorem past
    (onCourse : OnCourse list descent)
    {tokens : List Token}
    (isPrefix : tokens <+: descent.rest)
    (inside : ¬ Ended tokens)
    (diagnostics : List Diagnostic) :
    OnCourse list (descent.past tokens diagnostics) := by
  obtain ⟨later, ahead⟩ := isPrefix
  have behind : (descent.past tokens diagnostics).rest = later :=
    rest_past ahead.symm diagnostics
  refine ⟨?_, ?_, ?_, onCourse.outside⟩
  · rw [behind, ← onCourse.whole, ← ahead]
    simp [Descent.past]
  · have notTaken := onCourse.inside
    simp [Descent.past, ended_append_iff, ended_reverse_iff, inside, notTaken]
  · have ended := onCourse.ended
    rw [← ahead, ended_append_iff] at ended
    rw [behind]
    exact ended.resolve_left inside

theorem position_le
    (onCourse : OnCourse list descent) :
    descent.position ≤ list.findIdx fun token => token.kind = .endOfInput := by
  have noneTaken :
      ¬ (descent.taken.reverse.findIdx fun token => token.kind = .endOfInput) <
        descent.taken.reverse.length := by
    rw [List.findIdx_lt_length]
    rintro ⟨token, member, isEnd⟩
    exact onCourse.inside ⟨token, List.mem_reverse.1 member, by simpa using isEnd⟩
  rw [← onCourse.whole, List.findIdx_append, if_neg noneTaken, position, List.length_reverse]
  exact Nat.le_add_left _ _

/-- What a single step leaves as it was and what it moves on. -/
theorem exists_step
    (onCourse : OnCourse list descent)
    {α : Type} {step : Step α}
    (proceeds : Proceeds step) :
    ∃ answer behind,
      step descent = .ok answer behind ∧
        OnCourse list behind ∧
        descent.position ≤ behind.position ∧
        descent.diagnostics <+: behind.diagnostics := by
  obtain ⟨answer, tokens, diagnostics, isPrefix, inside, equality⟩ :=
    proceeds descent onCourse.ended
  refine ⟨answer, _, equality, onCourse.past isPrefix inside diagnostics, ?_, ?_⟩
  · simp [position, Descent.past]
  · exact List.prefix_append _ _

theorem applied
    (onCourse : OnCourse list descent)
    (operation : Operation) :
    OnCourse list (operation.applied descent) := by
  obtain ⟨answer, behind, equality, behindOnCourse, _⟩ :=
    onCourse.exists_step operation.proceeds
  rw [Operation.applied, equality]
  exact behindOnCourse

theorem foldl
    (onCourse : OnCourse list descent)
    (operations : List Operation) :
    OnCourse list (operations.foldl Operation.applied descent) := by
  induction operations generalizing descent with
  | nil => exact onCourse
  | cons operation later ih => exact ih (onCourse.applied operation)

end OnCourse

end Descent

end LoxSyntax
