import LoxSyntax.Proofs.Scan.Lexeme

/-!
# How far a scan moves

Each operation that reads characters moves the position forward by the length of what it reads.
The rest of a token is its tail (`readRest_snd`).
-/

namespace LoxSyntax.Scan

theorem forward_forward (scan : Scan) (first second : Nat) :
    (scan.forward first).forward second = scan.forward (first + second) := by
  simp [forward, List.take_add, List.drop_drop, Nat.add_assoc]

theorem forward_zero (scan : Scan) : scan.forward 0 = scan := by
  simp [forward]

theorem advance_eq_forward
    {scan : Scan} {character : Char} {rest : List Char}
    (ahead : scan.rest = character :: rest) :
    scan.advance = scan.forward 1 := by
  simp [advance, forward, current, ahead]

theorem current_eq_singleton_iff {scan : Scan} {character : Char} :
    scan.current = [character] ↔ ∃ rest, scan.rest = character :: rest := by
  cases ahead : scan.rest with
  | nil => simp [current, ahead]
  | cons next rest => simp [current, ahead]

theorem readString_snd (scan : Scan) :
    scan.readString.2 = scan.forward (Opening.quote.tail scan.rest).length := by
  simp only [readString, accept]
  obtain ⟨body, noQuote, whole | ⟨later, whole⟩⟩ := Opening.exists_body scan.rest
  · have all : scan.forwardWhile (· ≠ '"') = scan.forward body.length := by
      rw [forwardWhile, whole, List.takeWhile_eq_self_iff.2 (Opening.ne_quote_of_not_mem noQuote)]
    have ended : (scan.forward body.length).current ≠ ['"'] := by
      simp [current, forward, whole]
    rw [all, if_neg ended, whole, Opening.tail_quote_of_not_mem noQuote]
  · have all : scan.forwardWhile (· ≠ '"') = scan.forward body.length := by
      rw [forwardWhile, whole, Opening.takeWhile_body noQuote]
    have ahead : (scan.forward body.length).rest = '"' :: later := by
      simp [forward, whole]
    rw [all, if_pos (current_eq_singleton_iff.2 ⟨later, ahead⟩), advance_eq_forward ahead,
      forward_forward, whole, Opening.tail_quote_append noQuote, List.length_append,
      List.length_singleton]

theorem forwardNumber_eq (scan : Scan) :
    scan.forwardNumber = scan.forward (Opening.digit.tail scan.rest).length := by
  simp only [forwardNumber]
  split
  · rename_i atPoint
    obtain ⟨decimals, ahead⟩ := current_eq_singleton_iff.1 atPoint
    have behind :
        scan.rest.drop (scan.rest.takeWhile Text.isDigit).length = '.' :: decimals :=
      ahead
    have behindPoint : ((scan.forwardWhile Text.isDigit).forward 1).rest = decimals := by
      rw [forward, ahead]
      rfl
    rw [advance_eq_forward ahead, forwardWhile, behindPoint, forwardWhile, forward_forward,
      forward_forward]
    simp [Opening.tail, behind, Nat.add_comm 1]
  · rename_i notAtPoint
    rw [forwardWhile, Opening.tail_digit_of_ne_point]
    intro decimals ahead
    exact notAtPoint (current_eq_singleton_iff.2 ⟨decimals, ahead⟩)

/-- A token takes its tail.  Apart from the diagnostics nothing else happens. -/
theorem readRest_snd (scan : Scan) (opening : Opening) :
    (scan.readRest opening).2 =
      { scan.forward (opening.tail scan.rest).length with
        diagnostics := (scan.readRest opening).2.diagnostics } := by
  cases opening with
  | mark kind => simp [readRest, Opening.tail, forward_zero]
  | pair double single =>
      by_cases ahead : scan.current = ['=']
      · obtain ⟨rest, equality⟩ := current_eq_singleton_iff.1 ahead
        simp [readRest, accept, Opening.tail, ahead, equality, advance_eq_forward equality]
      · have noTail : scan.rest.take 1 ≠ ['='] := ahead
        simp [readRest, accept, Opening.tail, ahead, noTail, forward_zero]
  | slash => simp [readRest, Opening.tail, forward_zero]
  | quote => rw [readRest, readString_snd]
  | digit =>
      rw [readRest, readNumber, forwardNumber_eq, makeNumber]
      split <;> rfl
  | letter => rfl
  | unknown => simp [readRest, Opening.tail, forward_zero]

theorem pending_readRest (scan : Scan) (opening : Opening) :
    (scan.readRest opening).2.pending = scan.pending ++ opening.tail scan.rest := by
  rw [readRest_snd, forward,
    ← List.prefix_iff_eq_take.1 (Opening.tail_isPrefix opening scan.rest)]

/-- The lexeme of a token is what is pending behind it. -/
theorem lexeme_readRest (scan : Scan) (opening : Opening) :
    (scan.readRest opening).1.lexeme =
      some (String.ofList (scan.pending ++ opening.tail scan.rest)) := by
  rw [← pending_readRest]
  cases opening with
  | digit =>
      rw [readRest, readNumber, makeNumber]
      split <;> rfl
  | _ => rfl

/-- The kind of a token whose first character is pending. -/
theorem kind_readRest
    {scan : Scan} {character : Char} (pending : scan.pending = [character])
    (opening : Opening) :
    (scan.readRest opening).1.kind =
      opening.kind (character :: opening.tail scan.rest) := by
  cases opening with
  | pair double single =>
      by_cases ahead : scan.rest.take 1 = ['=']
      · simp [readRest, accept, current, make, Opening.tail, Opening.kind, ahead]
      · simp [readRest, accept, current, make, Opening.tail, Opening.kind, ahead]
  | digit =>
      rw [readRest, readNumber, makeNumber]
      split <;> rfl
  | letter =>
      have made : (scan.readRest .letter).1.kind =
          TokenKind.ofWord (String.ofList (scan.readRest .letter).2.pending) :=
        rfl
      rw [made, pending_readRest, pending]
      rfl
  | _ => rfl

theorem next_of_nil
    {scan : Scan} (behind : scan.rest.drop (Layout.leading scan.rest).length = []) :
    scan.next =
      (⟨.endOfInput, none, .nil, scan.skipLayout.setMark.line⟩, scan.skipLayout.setMark) := by
  have ended : scan.skipLayout.setMark.rest = [] := behind
  rw [next, ended]

end LoxSyntax.Scan
