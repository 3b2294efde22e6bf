import LoxSyntax.Proofs.Descent.Operations

/-!
# What is skipped

From behind an opening parenthesis the tokens are skipped through the closing one that is its
partner, whatever stands between the two (`Enclosed.skips`).  Where it has no partner the tokens
are skipped up to the first one that ends the input (`Skips.reaches_end`).  In front of a given
list nothing else can be skipped (`Skips.unique`).
-/

namespace LoxSyntax

/-- Whether some tokens can stand between an opening parenthesis and its partner. -/
structure Enclosed (tokens : List Token) : Prop where
  balanced : Balanced tokens
  goesOn : ¬ Ended tokens

namespace Enclosed

theorem nil : Enclosed [] :=
  ⟨.nil, not_ended_nil⟩

theorem plain
    {token : Token} {tokens : List Token}
    (isPlain : token.kind.Plain) (enclosed : Enclosed tokens) :
    Enclosed (token :: tokens) := by
  refine ⟨.plain isPlain.notOpening isPlain.notClosing enclosed.balanced, ?_⟩
  rw [ended_cons_iff]
  rintro (isEnd | later)
  · exact isPlain.goesOn isEnd
  · exact enclosed.goesOn later

theorem group
    {opening closing : Token} {inner tokens : List Token}
    (isOpening : opening.kind = .leftParen)
    (innerEnclosed : Enclosed inner)
    (isClosing : closing.kind = .rightParen)
    (enclosed : Enclosed tokens) :
    Enclosed (opening :: inner ++ closing :: tokens) := by
  refine ⟨.group isOpening innerEnclosed.balanced isClosing enclosed.balanced, ?_⟩
  simp [ended_append_iff, ended_cons_iff, isOpening, isClosing, innerEnclosed.goesOn,
    enclosed.goesOn]

end Enclosed

/-- Tokens that close all groups that they open are passed over. -/
theorem Balanced.skips
    {tokens : List Token}
    (balanced : Balanced tokens)
    (goesOn : ¬ Ended tokens)
    {opened : Nat} {rest : List Token} {next : Token}
    (skips : Skips (opened + 1) rest next) :
    Skips (opened + 1) (tokens ++ rest) next := by
  induction balanced generalizing opened rest with
  | nil => exact skips
  | plain notOpening notClosing _ ih =>
      rw [ended_cons_iff, not_or] at goesOn
      exact .plain ⟨notOpening, notClosing, goesOn.1⟩ (ih goesOn.2 skips)
  | @group opening closing inner later isOpening _ isClosing _ innerIh laterIh =>
      rw [List.cons_append, ended_cons_iff, ended_append_iff, ended_cons_iff] at goesOn
      simp only [not_or] at goesOn
      obtain ⟨_, innerGoesOn, _, laterGoesOn⟩ := goesOn
      have closed : Skips (opened + 2) (closing :: (later ++ rest)) next :=
        .closing isClosing (laterIh laterGoesOn skips)
      simpa using Skips.opening isOpening (innerIh innerGoesOn closed)

theorem Enclosed.skips
    {tokens : List Token}
    (enclosed : Enclosed tokens)
    {closing : Token}
    (isClosing : closing.kind = .rightParen)
    (next : Token) :
    Skips 1 (tokens ++ [closing]) next :=
  enclosed.balanced.skips enclosed.goesOn (.closing isClosing .closed)

/-- The innermost of some groups is closed, or the tokens are skipped up to the end. -/
theorem Skips.exists_enclosed
    {opened : Nat} {tokens : List Token} {next : Token}
    (skips : Skips (opened + 1) tokens next)
    (goesOn : next.kind ≠ .endOfInput) :
    ∃ inside closing rest,
      tokens = inside ++ closing :: rest ∧
        Enclosed inside ∧
        closing.kind = .rightParen ∧
        Skips opened rest next := by
  cases skips with
  | ending isEnd => exact absurd isEnd goesOn
  | @opening _ token _ tokens isOpening later =>
      obtain ⟨inner, innerClosing, between, rfl, innerEnclosed, isInnerClosing, laterSkips⟩ :=
        later.exists_enclosed goesOn
      obtain ⟨inside, closing, rest, rfl, enclosed, isClosing, restSkips⟩ :=
        laterSkips.exists_enclosed goesOn
      refine ⟨token :: inner ++ innerClosing :: inside, closing, rest, ?_, ?_, isClosing,
        restSkips⟩
      · simp
      · exact .group isOpening innerEnclosed isInnerClosing enclosed
  | @closing _ token _ tokens isClosing later =>
      exact ⟨[], token, tokens, rfl, .nil, isClosing, later⟩
  | @plain _ token _ tokens isPlain later =>
      obtain ⟨inside, closing, rest, rfl, enclosed, isClosing, restSkips⟩ :=
        later.exists_enclosed goesOn
      exact ⟨token :: inside, closing, rest, rfl, .plain isPlain enclosed, isClosing, restSkips⟩
termination_by tokens.length
decreasing_by all_goals subst_vars; simp only [List.length_cons, List.length_append]; omega

/-- Whether some closing parenthesis is the partner of one that stands in front of the tokens. -/
def Partnered (tokens : List Token) : Prop :=
  ∃ inside closing rest,
    tokens = inside ++ closing :: rest ∧
      Enclosed inside ∧
      closing.kind = .rightParen

/-- Without a partner the rest of a group is skipped up to the end of the input. -/
theorem Skips.reaches_end
    {tokens later : List Token} {next : Token}
    (skips : Skips 1 tokens next)
    (unpartnered : ¬ Partnered (tokens ++ next :: later)) :
    next.kind = .endOfInput := by
  by_cases isEnd : next.kind = .endOfInput
  · exact isEnd
  · obtain ⟨inside, closing, rest, rfl, enclosed, isClosing, _⟩ := skips.exists_enclosed isEnd
    refine absurd ?_ unpartnered
    exact ⟨inside, closing, rest ++ next :: later, by simp, enclosed, isClosing⟩

/-- Where skipping stops is determined by the list. -/
theorem Skips.unique
    {opened : Nat} {tokens otherTokens later otherLater : List Token} {next otherNext : Token}
    (skips : Skips opened tokens next)
    (otherSkips : Skips opened otherTokens otherNext)
    (sameList : tokens ++ next :: later = otherTokens ++ otherNext :: otherLater) :
    tokens = otherTokens ∧ next = otherNext ∧ later = otherLater := by
  have run := skips.run (.ofTokens []) [] later
  rw [sameList, otherSkips.run] at run
  injection run with _ moved
  have sameTokens := congrArg Descent.taken moved
  have sameRest := congrArg Descent.rest moved
  obtain ⟨rfl, rfl⟩ := List.cons.inj sameRest
  exact ⟨List.reverse_inj.1 (by simpa using sameTokens.symm), rfl, rfl⟩

/-- From behind an opening parenthesis the tokens are skipped through its partner. -/
theorem Skips.eq_enclosed
    {tokens later inside behind : List Token} {next closing : Token}
    (skips : Skips 1 tokens next)
    (enclosed : Enclosed inside)
    (isClosing : closing.kind = .rightParen)
    (ended : Ended behind)
    (sameList : tokens ++ next :: later = inside ++ closing :: behind) :
    next :: later = behind := by
  obtain ⟨first, others, rfl⟩ := ended.exists_cons
  have sameSplit : tokens ++ next :: later = inside ++ [closing] ++ first :: others := by
    simpa using sameList
  obtain ⟨_, rfl, rfl⟩ := skips.unique (enclosed.skips isClosing first) sameSplit
  rfl

end LoxSyntax
