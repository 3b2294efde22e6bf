import LoxSyntax.Proofs.Descent.Exhaustion
import LoxSyntax.Proofs.Descent.Operations

/-!
# Where the cursor can stand

On a list that ends, operations in any order keep a descent in front of the first token that
ends the input, and none of them fails.  A list without such a token is read like the list with
one behind it, unless the descent would stop there: then it fails for want of tokens
(`Descent.stays_in_front_of_end`).
-/

namespace LoxSyntax

namespace Parses

open Descent

variable {list : List Token} {last next : Token} {position : Nat} {expr : Expr}
  {diagnostics : List Diagnostic}

theorem position_le_length
    (parses : Parses (list ++ [last]) position next expr diagnostics) :
    position ≤ list.length := by
  have inside := (List.getElem?_eq_some_iff.1 parses.atPosition).1
  rw [List.length_append, List.length_singleton] at inside
  exact Nat.le_of_lt_succ inside

/-- What stops in front of the last token does not depend on it. -/
theorem of_append
    (parses : Parses (list ++ [last]) position next expr diagnostics)
    (before : position ≠ list.length) :
    Parses list position next expr diagnostics := by
  have within := parses.position_le_length
  obtain ⟨atPosition, reads, stops⟩ := parses
  refine ⟨?_, ?_, stops⟩
  · rw [List.getElem?_append_left (by omega)] at atPosition
    exact atPosition
  · rw [List.take_append_of_le_length within] at reads
    exact reads

/-- What stops at the last token fails without it. -/
theorem fails_of_append
    (parses : Parses (list ++ [last]) list.length next expr diagnostics) :
    Fails parse (ofTokens list) := by
  have reads := parses.reads
  rw [List.take_left] at reads
  have reading : Fails expression (ofTokens list) :=
    fails_bind (get_apply _) (reads.runs_out rfl)
  exact reading.bind _

end Parses

namespace Descent

/-- On a list that ends, no operation fails, whatever operations went before it: the cursor moves
forward and stays in front of the first token that ends the input, no group is left open, and
diagnostics are added at the end only.  On a list that does not end, reading an expression fails
exactly where it would have stopped at a token put behind the list to end it, and otherwise such
a token changes nothing. -/
theorem stays_in_front_of_end (list : List Token) :
    (Ended list →
      ∀ (operations : List Operation) (operation : Operation),
        let descent := operations.foldl Operation.applied (ofTokens list)
        ∃ behind,
          operation.step descent = .ok () behind ∧
            behind.taken.reverse ++ behind.rest = list ∧
            descent.position ≤ behind.position ∧
            (behind.position ≤ list.findIdx fun token => token.kind = .endOfInput) ∧
            behind.depth = 0 ∧
            descent.diagnostics <+: behind.diagnostics) ∧
      (¬ Ended list →
        ∀ last : Token,
          last.kind = .endOfInput →
            ∃ answer stopped,
              parse (ofTokens (list ++ [last])) = .ok answer stopped ∧
                ((∃ failed, parse (ofTokens list) = .error .outOfTokens failed) ↔
                  stopped.position = list.length) ∧
                (stopped.position ≠ list.length →
                  ∃ behind,
                    parse (ofTokens list) = .ok answer behind ∧
                      behind.diagnostics = stopped.diagnostics ∧
                      behind.position = stopped.position)) := by
  refine ⟨?_, ?_⟩
  · intro ended operations operation descent
    have onCourse : OnCourse list descent := (OnCourse.ofTokens ended).foldl operations
    obtain ⟨_, behind, answers, behindOnCourse, further, extended⟩ :=
      onCourse.exists_step operation.proceeds
    exact ⟨behind, answers, behindOnCourse.whole, further, behindOnCourse.position_le,
      behindOnCourse.outside, extended⟩
  · intro _ last isEnd
    have ended : Ended (list ++ [last]) := ⟨last, by simp, isEnd⟩
    obtain ⟨position, next, expr, diagnostics, parses⟩ := exists_parses ended
    refine ⟨_, _, parses.parse_eq, ?_⟩
    rw [parses.position_past]
    by_cases atLast : position = list.length
    · subst atLast
      refine ⟨iff_of_true parses.fails_of_append rfl, ?_⟩
      intro before
      exact absurd rfl before
    · have without := parses.of_append atLast
      refine ⟨iff_of_false ?_ atLast, ?_⟩
      · rintro ⟨failed, fails⟩
        rw [without.parse_eq] at fails
        cases fails
      · intro _
        exact ⟨_, without.parse_eq, rfl, without.position_past⟩

/-- The tokens of `(nil -`, which nothing ends. -/
def brokenOff : List Token :=
  [.leftParen, .nilWord, .minus].map Token.bare

/-- With an end behind it the expression can be read from any place; without one it fails. -/
theorem stays_in_front_of_brokenOff :
    Ended (brokenOff ++ [.bare .endOfInput]) ∧
      ¬ Ended brokenOff ∧
      (∃ behind,
        Operation.parse.step
            ([.previous, .advance, .factor, .accept [.endOfInput], .expect .comma .unclosedGroup,
              .skipGroup].foldl Operation.applied
              (ofTokens (brokenOff ++ [.bare .endOfInput]))) =
            .ok () behind ∧
          behind.position ≤ 3 ∧
          behind.depth = 0) ∧
      ∃ failed, parse (ofTokens brokenOff) = .error .outOfTokens failed := by
  have ended : Ended (brokenOff ++ [.bare .endOfInput]) := ⟨.bare .endOfInput, by decide, rfl⟩
  have endless : ¬ Ended brokenOff := by
    rintro ⟨token, member, isEnd⟩
    revert isEnd
    revert token
    decide
  refine ⟨ended, endless, ?_, ?_⟩
  · obtain ⟨behind, answers, _, _, inside, outside, _⟩ :=
      (stays_in_front_of_end _).1 ended
        [.previous, .advance, .factor, .accept [.endOfInput], .expect .comma .unclosedGroup,
          .skipGroup]
        .parse
    exact ⟨behind, answers, inside, outside⟩
  · obtain ⟨answer, stopped, parses, fails, _⟩ :=
      (stays_in_front_of_end brokenOff).2 endless (.bare .endOfInput) rfl
    apply fails.2
    have run :
        ∃ answer descent,
          parse (ofTokens (brokenOff ++ [.bare .endOfInput])) = .ok answer descent ∧
            descent.position = 3 :=
      ⟨_, _, rfl, rfl⟩
    obtain ⟨_, descent, equality, position⟩ := run
    rw [equality] at parses
    injection parses with _ same
    rw [← same]
    exact position

end Descent

end LoxSyntax
