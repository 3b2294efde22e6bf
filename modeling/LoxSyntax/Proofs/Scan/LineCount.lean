import LoxSyntax.Proofs.Scan.LongestMatch

/-!
# The line of a scan

The line of a scan is the line of its position in the text, whatever has been done with the scan
(`line_eq_lineAt`).  A token says on which line it ends, and so does what is recorded with it.
-/

namespace LoxSyntax.Scan

/-- The line on which a position of a text lies.  Only line feeds end a line here. -/
def lineAt (text : List Char) (position : Nat) : Nat :=
  1 + (text.take position).count '\n'

theorem lineAt_add_count_drop (text : List Char) (position : Nat) :
    lineAt text position + (text.drop position).count '\n' = 1 + text.count '\n' := by
  rw [lineAt, Nat.add_assoc, count_take_add_count_drop]

theorem lineAt_le (text : List Char) (position : Nat) :
    lineAt text position ≤ 1 + text.count '\n' := by
  rw [← lineAt_add_count_drop text position]
  exact Nat.le_add_right _ _

variable {source : String} {tokens : List Token} {scan : Scan}

theorem line_eq_lineAt (moves : Moves (ofText source) tokens scan) :
    scan.line = lineAt source.toList scan.position := by
  have ahead : scan.rest = source.toList.drop scan.position := (Over.ofText source).moves moves
  have total : scan.line + scan.rest.count '\n' = 1 + source.toList.count '\n' := moves.lines_eq
  have split := lineAt_add_count_drop source.toList scan.position
  rw [ahead] at total
  omega

theorem line_next (scan : Scan) : scan.next.1.line = scan.next.2.line := by
  cases behind : scan.rest.drop (Layout.leading scan.rest).length with
  | nil => rw [next_of_nil behind]
  | cons character rest => rw [next_eq behind]; rfl

/-- A token without a lexeme stands behind the text, and any other ends at the position. -/
theorem Over.lexeme_next {text : List Char} (isOver : Over text scan) :
    scan.next.1.lexeme = none ∧ text.length ≤ scan.next.2.position ∨
      scan.next.1.lexeme =
        some (String.ofList (text.extract scan.next.2.mark scan.next.2.position)) := by
  have nextIsOver : Over text scan.next.2 := isOver.moves (moves_next scan)
  cases behind : scan.rest.drop (Layout.leading scan.rest).length with
  | nil =>
      apply Or.inl
      have ended : scan.next.2.rest = [] := by
        rw [next_of_nil behind]
        exact behind
      rw [Over, ended, eq_comm, List.drop_eq_nil_iff] at nextIsOver
      exact ⟨congrArg (·.1.lexeme) (next_of_nil behind), nextIsOver⟩
  | cons character rest =>
      apply Or.inr
      rw [(isOver.slice_of_next behind).2.2.2]
      exact (next_of_cons behind).2.1

/-- Whatever is done with a scan of a text, its mark is not behind its position, the position
moves forward only, and the line is that of the position.  So a token that is read is on the line
where it ends; every diagnostic is that of a token, on the line of the token; and from one token
to the next the lines never decrease.  To read all tokens is to read one after the other. -/
theorem line_counts_line_feeds (source : String) (operations : List Operation) :
    let text := source.toList
    let scan := (ofText source).after operations
    let answers := (ofText source).answers operations
    scan.mark ≤ scan.position ∧
      (∀ operation : Operation, scan.position ≤ (operation.apply scan).position) ∧
      scan.line = lineAt text scan.position ∧
      scan.next.1.line = lineAt text scan.next.2.position ∧
      (scan.next.1.lexeme = none ∧ text.length ≤ scan.next.2.position ∨
        scan.next.1.lexeme =
          some (String.ofList (text.extract scan.next.2.mark scan.next.2.position))) ∧
      (∃ count,
        scan.tokens =
          (scan.answers (List.replicate count .next),
            scan.after (List.replicate count .next))) ∧
      scan.diagnostics = answers.flatMap Token.complaints ∧
      answers.Pairwise fun earlier later => earlier.line ≤ later.line := by
  intro text scan answers
  have moves : Moves (ofText source) answers scan := moves_after (ofText source) operations
  have further := moves.trans (moves_next scan)
  refine ⟨moves.mark_le (Nat.le_refl 0), ?_, line_eq_lineAt moves, ?_, ?_,
    exists_tokens_eq_nexts scan, moves.diagnostics_eq, moves.pairwise_line_le⟩
  · intro operation
    exact (operation.moves scan).position_le
  · rw [line_next, line_eq_lineAt further]
  · exact ((Over.ofText source).moves moves).lexeme_next

end LoxSyntax.Scan

namespace LoxSyntax.Token

open Scan

theorem line_mem_ofSource
    {source : String} {token : Token} (member : token ∈ ofSource source) :
    1 ≤ token.line ∧ token.line ≤ 1 + source.toList.count '\n' := by
  have moves : Moves (Scan.ofText source) (ofSource source) _ := moves_tokens _
  have first : (Scan.ofText source).line = 1 := rfl
  have last := lineAt_le source.toList (Scan.ofText source).tokens.2.position
  have inside := moves.line_mem member
  rw [line_eq_lineAt moves] at inside
  omega

theorem pairwise_line_ofSource (source : String) :
    (ofSource source).Pairwise fun earlier later => earlier.line ≤ later.line :=
  (moves_tokens (Scan.ofText source)).pairwise_line_le

theorem diagnostics_ofSource (source : String) :
    (Scan.ofText source).tokens.2.diagnostics = (ofSource source).flatMap complaints :=
  (moves_tokens (Scan.ofText source)).diagnostics_eq

end LoxSyntax.Token
