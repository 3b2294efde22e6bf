import LoxSyntax.Proofs.Scan.Yield

/-!
# Scans of the same text on other lines

What a scan reads depends on what it has in front of it and, for the lines, on the line that it
has reached.  What has been read before does not matter, and neither do the position and the
mark.  So a scan that has the same in front of it some lines further down reads the same tokens
that many lines further down (`Shifted.tokens_eq`).
-/

namespace LoxSyntax

/-- Puts things a number of lines further down. -/
def shiftLine (count : Nat) : Int → Int :=
  fun line => line + count

namespace Scan

/-- `Shifted count scan lower` when `lower` has the same in front of it as `scan`, that many lines
further down. -/
structure Shifted (count : Nat) (scan lower : Scan) : Prop where
  rest : lower.rest = scan.rest
  line : lower.line = scan.line + count

namespace Shifted

variable {count : Nat} {scan lower : Scan}

theorem forward (shifted : Shifted count scan lower) (length : Nat) :
    Shifted count (scan.forward length) (lower.forward length) := by
  refine ⟨?_, ?_⟩
  · simp only [Scan.forward, shifted.rest]
  · simp only [Scan.forward, shifted.rest, shifted.line]
    omega

theorem skipLayout (shifted : Shifted count scan lower) :
    Shifted count scan.skipLayout.setMark lower.skipLayout.setMark := by
  obtain ⟨rest, line⟩ := shifted.forward (Layout.leading scan.rest).length
  refine ⟨?_, ?_⟩
  · rw [Scan.skipLayout, shifted.rest]
    exact rest
  · rw [Scan.skipLayout, shifted.rest]
    exact line

theorem next (shifted : Shifted count scan lower) :
    lower.next.1 = scan.next.1.mapLine (shiftLine count) ∧
      Shifted count scan.next.2 lower.next.2 := by
  have started := shifted.skipLayout
  cases behind : scan.rest.drop (Layout.leading scan.rest).length with
  | nil =>
      have lowerBehind : lower.rest.drop (Layout.leading lower.rest).length = [] := by
        rw [shifted.rest, behind]
      rw [next_of_nil behind, next_of_nil lowerBehind]
      refine ⟨?_, started⟩
      rw [started.line, Int.natCast_add]
      rfl
  | cons character rest =>
      have lowerBehind :
          lower.rest.drop (Layout.leading lower.rest).length = character :: rest := by
        rw [shifted.rest, behind]
      obtain ⟨further, line⟩ :=
        started.forward (character :: (Opening.ofChar character).tail rest).length
      rw [next_eq behind, next_eq lowerBehind]
      refine ⟨?_, further, line⟩
      rw [line, Int.natCast_add]
      rfl

theorem tokens_eq (shifted : Shifted count scan lower) :
    lower.tokens.1 = scan.tokens.1.map (Token.mapLine (shiftLine count)) := by
  induction scan using induction_next generalizing lower with
  | ends scan ends =>
      rw [tokens_of_ends ends, tokens_of_next_ends shifted.next.1 ends]
      rfl
  | goesOn scan goesOn ih =>
      obtain ⟨read, further⟩ := shifted.next
      rw [tokens_of_ne goesOn, tokens_of_next read goesOn, ih further]
      rfl

end Shifted

end Scan

end LoxSyntax
