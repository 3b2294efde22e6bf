import Mathlib.Logic.Function.Iterate
import LoxSyntax.Proofs.Scan.Joining

/-!
# Reading on

A stray character ends the tokens that a scan reads, but not the scan: reading goes on behind it.
A scan that has got anywhere in its text reads what a fresh scan of the text from there on reads,
on later lines (`Shifted.tokens_eq`, `Shifted.diagnostics_eq`).

The characters that are left become fewer each time that the tokens end at a stray character
(`exists_last`).  So after some calls none is left, and then nothing changes any more: each call
answers with the end of the input and leaves the scan as it is (`exists_drained`).
-/

namespace LoxSyntax

namespace Scan

/-- `Reached source scan` when a fresh scan of a source text gets to `scan` by reading tokens, one
or all up to the end, any number of times. -/
inductive Reached (source : String) : Scan → Prop
  | fresh : Reached source (ofText source)
  | next {scan : Scan} : Reached source scan → Reached source scan.next.2
  | tokens {scan : Scan} : Reached source scan → Reached source scan.tokens.2

theorem Moves.rest_isSuffix
    {scan behind : Scan} {tokens : List Token} (moves : Moves scan tokens behind) :
    behind.rest <:+ scan.rest := by
  induction moves with
  | done => exact List.suffix_rfl
  | forward count _ ih => exact ih.trans (List.drop_suffix count _)
  | advance _ ih => exact ih.trans (List.drop_suffix 1 _)
  | setMark _ ih | answer _ _ ih => exact ih

theorem position_add_forward (scan : Scan) (count : Nat) :
    (scan.forward count).position + (scan.forward count).rest.length =
      scan.position + scan.rest.length := by
  simp only [forward, List.length_take, List.length_drop]
  omega

/-- A token takes no more than there is, so that the position never gets behind the text. -/
theorem position_add_next (scan : Scan) :
    scan.next.2.position + scan.next.2.rest.length = scan.position + scan.rest.length := by
  have layout : scan.skipLayout.setMark.position + scan.skipLayout.setMark.rest.length =
      scan.position + scan.rest.length :=
    position_add_forward scan _
  cases behind : scan.rest.drop (Layout.leading scan.rest).length with
  | nil =>
      rw [next_of_nil behind]
      exact layout
  | cons character rest =>
      rw [(next_of_cons behind).2.2]
      exact (position_add_forward _ _).trans layout

theorem position_add_tokens (scan : Scan) :
    scan.tokens.2.position + scan.tokens.2.rest.length = scan.position + scan.rest.length := by
  induction scan using induction_next with
  | ends scan ends =>
      rw [tokens_of_ends ends]
      exact position_add_next scan
  | goesOn scan goesOn ih =>
      rw [tokens_of_ne goesOn]
      exact ih.trans (position_add_next scan)

namespace Reached

variable {source : String} {scan : Scan}

theorem exists_moves (reached : Reached source scan) :
    ∃ tokens, Moves (ofText source) tokens scan := by
  induction reached with
  | fresh => exact ⟨[], .done _⟩
  | next _ ih =>
      obtain ⟨tokens, moves⟩ := ih
      exact ⟨_, moves.trans (moves_next _)⟩
  | tokens _ ih =>
      obtain ⟨tokens, moves⟩ := ih
      exact ⟨_, moves.trans (moves_tokens _)⟩

theorem position_add (reached : Reached source scan) :
    scan.position + scan.rest.length = source.toList.length := by
  induction reached with
  | fresh => exact Nat.zero_add _
  | next _ ih => exact (position_add_next _).trans ih
  | tokens _ ih => exact (position_add_tokens _).trans ih

theorem isOver (reached : Reached source scan) : Over source.toList scan := by
  obtain ⟨tokens, moves⟩ := reached.exists_moves
  exact (Over.ofText source).moves moves

theorem one_le_line (reached : Reached source scan) : 1 ≤ scan.line := by
  obtain ⟨tokens, moves⟩ := reached.exists_moves
  exact moves.line_le

/-- A fresh scan of what is left has the same in front of it. -/
theorem shifted (reached : Reached source scan) :
    Shifted (scan.line - 1) (ofText (String.ofList (source.toList.drop scan.position))) scan := by
  have fromFirst := reached.one_le_line
  refine ⟨?_, ?_⟩
  · rw [ofText, String.toList_ofList]
    exact reached.isOver
  · simp only [ofText]
    omega

end Reached

/-- What is recorded by the lower scan is recorded further down. -/
theorem Shifted.diagnostics_eq
    {count : Nat} {scan lower : Scan} (shifted : Shifted count scan lower)
    (nothing : scan.diagnostics = []) :
    lower.tokens.2.diagnostics =
      lower.diagnostics ++
        scan.tokens.2.diagnostics.map (Diagnostic.mapLine (shiftLine count)) := by
  have complaints : (Token.complaints ∘ Token.mapLine (shiftLine count)) =
      fun token => token.complaints.map (Diagnostic.mapLine (shiftLine count)) :=
    funext (Token.complaints_mapLine _)
  rw [(moves_tokens lower).diagnostics_eq, shifted.tokens_eq, List.flatMap_map,
    (moves_tokens scan).diagnostics_eq, nothing, List.nil_append, List.map_flatMap]
  exact congrArg (lower.diagnostics ++ List.flatMap · _) complaints

/-! ## The end -/

/-- Nothing is left in front of the scan, and whatever is read is the same end of the input. -/
structure Drained (scan : Scan) (last : Token) : Prop where
  rest : scan.rest = []
  kind : last.kind = .endOfInput
  lexeme : last.lexeme = none
  next : scan.next = (last, scan)

theorem Drained.tokens {scan : Scan} {last : Token} (drained : Drained scan last) :
    scan.tokens = ([last], scan) := by
  have ends : scan.next.1.kind = .endOfInput := by
    rw [drained.next]
    exact drained.kind
  rw [tokens_of_ends ends, drained.next]

theorem drained_of_next
    {scan : Scan} (behind : scan.rest.drop (Layout.leading scan.rest).length = []) :
    Drained scan.next.2 scan.next.1 := by
  rw [next_of_nil behind]
  have ended : scan.skipLayout.setMark.rest = [] := behind
  have settled : scan.skipLayout.setMark.skipLayout.setMark = scan.skipLayout.setMark := by
    rw [skipLayout, ended]
    change (scan.skipLayout.setMark.forward 0).setMark = scan.skipLayout.setMark
    rw [forward_zero]
    rfl
  have again : scan.skipLayout.setMark.rest.drop
      (Layout.leading scan.skipLayout.setMark.rest).length = [] := by
    rw [ended]
    rfl
  refine ⟨ended, rfl, rfl, ?_⟩
  rw [next_of_nil again, settled]

/-- The tokens of a scan end where nothing is left, or at a character that is taken. -/
theorem exists_last (scan : Scan) :
    ∃ last,
      scan.tokens.1.getLast? = some last ∧
        last.kind = .endOfInput ∧
        (Drained scan.tokens.2 last ∨
          ∃ character,
            last.lexeme = some (String.ofList [character]) ∧
              character :: scan.tokens.2.rest <:+ scan.rest) := by
  induction scan using induction_next with
  | ends scan ends =>
      rw [tokens_of_ends ends]
      refine ⟨scan.next.1, rfl, ends, ?_⟩
      cases behind : scan.rest.drop (Layout.leading scan.rest).length with
      | nil => exact Or.inl (drained_of_next behind)
      | cons character rest =>
          have remaining := rest_next_of_cons behind
          rw [ofChar_of_next_ends behind ends] at remaining
          refine Or.inr ⟨character, (stray_of_next_ends behind ends).2, ?_⟩
          rw [remaining]
          change character :: rest <:+ scan.rest
          rw [← behind]
          exact List.drop_suffix _ _
  | goesOn scan goesOn ih =>
      obtain ⟨last, isLast, isEnd, drained | ⟨character, lexeme, taken⟩⟩ := ih
      · rw [getLast?_tokens goesOn, tokens_of_ne goesOn]
        exact ⟨last, isLast, isEnd, Or.inl drained⟩
      · rw [getLast?_tokens goesOn, tokens_of_ne goesOn]
        refine ⟨last, isLast, isEnd, Or.inr ⟨character, lexeme, ?_⟩⟩
        exact taken.trans (moves_next scan).rest_isSuffix

/-- After no more calls than characters are left, the next one drains the scan. -/
theorem exists_drained (scan : Scan) :
    ∃ count ≤ scan.rest.length,
      ∃ last,
        ((fun scan => scan.tokens.2)^[count] scan).tokens.1.getLast? = some last ∧
          Drained ((fun scan => scan.tokens.2)^[count] scan).tokens.2 last := by
  obtain ⟨last, isLast, _, drained | ⟨character, _, taken⟩⟩ := exists_last scan
  · exact ⟨0, Nat.zero_le _, last, isLast, drained⟩
  · have shorter := taken.length_le
    obtain ⟨count, enough, later⟩ := exists_drained scan.tokens.2
    refine ⟨count + 1, ?_, later⟩
    rw [List.length_cons] at shorter
    omega
termination_by scan.rest.length
decreasing_by
  rw [List.length_cons] at shorter
  omega

/-- A character in front of what is left of a text is that in front of the position. -/
theorem Reached.taken
    {source : String} {scan : Scan} (reached : Reached source scan) {character : Char}
    (isSuffix : character :: scan.rest <:+ source.toList) :
    source.toList.drop (scan.position - 1) = character :: scan.rest := by
  have position := reached.position_add
  have fits := isSuffix.length_le
  rw [List.length_cons] at fits
  rw [List.suffix_iff_eq_drop.1 isSuffix, List.length_cons]
  congr 1
  omega

theorem Reached.calls
    {source : String} {scan : Scan} (reached : Reached source scan) (count : Nat) :
    Reached source ((fun scan => scan.tokens.2)^[count] scan) := by
  induction count with
  | zero => exact reached
  | succ count ih =>
      rw [Function.iterate_succ_apply']
      exact ih.tokens

/-- Reading on from any state that is reached by reading tokens is reading what is left of the
text: the next tokens are those of a fresh scan, further down by the lines so far, and what is
recorded with them is added behind what has been recorded before.  They end where nothing is left,
or at a character that is taken, and reading goes on right behind it.  After no more calls than
the text has characters, the next one takes what is left, to the end of the text exactly, and
from then on each call answers with the same end of the input and leaves the scan as it is. -/
theorem Reached.resumes
    {source : String} {scan : Scan} (reached : Reached source scan) :
    let text := source.toList
    let fresh := ofText (String.ofList (text.drop scan.position))
    let shift := shiftLine (scan.line - 1)
    let behind := scan.tokens.2
    let calls (count : Nat) := (fun scan : Scan => scan.tokens.2)^[count] scan
    1 ≤ scan.line ∧
      scan.tokens.1 = fresh.tokens.1.map (Token.mapLine shift) ∧
      behind.diagnostics =
        scan.diagnostics ++ fresh.tokens.2.diagnostics.map (Diagnostic.mapLine shift) ∧
      (∃ last,
        scan.tokens.1.getLast? = some last ∧
          last.kind = .endOfInput ∧
          (last.lexeme = none ∨
            scan.position < behind.position ∧
              behind.rest = text.drop behind.position ∧
              ∃ character,
                last.lexeme = some (String.ofList [character]) ∧
                  text.drop (behind.position - 1) = character :: behind.rest)) ∧
      ∃ count ≤ text.length,
        ∃ last,
          (calls count).tokens.1.getLast? = some last ∧
            last.kind = .endOfInput ∧
            last.lexeme = none ∧
            (calls (count + 1)).position = text.length ∧
            (calls (count + 1)).next = (last, calls (count + 1)) ∧
            (calls (count + 1)).tokens = ([last], calls (count + 1)) := by
  intro text fresh shift behind calls
  refine ⟨reached.one_le_line, reached.shifted.tokens_eq, reached.shifted.diagnostics_eq rfl,
    ?_, ?_⟩
  · obtain ⟨last, isLast, isEnd, drained | ⟨character, lexeme, taken⟩⟩ := exists_last scan
    · exact ⟨last, isLast, isEnd, Or.inl drained.lexeme⟩
    · have inText : scan.rest <:+ text := by
        rw [reached.isOver]
        exact List.drop_suffix _ _
      have total : behind.position + behind.rest.length = _ := position_add_tokens scan
      have shorter : behind.rest.length + 1 ≤ scan.rest.length := taken.length_le
      have further : scan.position < behind.position := by omega
      exact ⟨last, isLast, isEnd, Or.inr ⟨further, reached.tokens.isOver, character, lexeme,
        reached.tokens.taken (taken.trans inText)⟩⟩
  · obtain ⟨count, enough, last, isLast, drained⟩ := exists_drained scan
    have total : scan.position + scan.rest.length = text.length := reached.position_add
    have settled : calls (count + 1) = (calls count).tokens.2 :=
      Function.iterate_succ_apply' _ count scan
    have position : (calls (count + 1)).position + (calls (count + 1)).rest.length =
        text.length :=
      (reached.calls (count + 1)).position_add
    refine ⟨count, by omega, last, isLast, drained.kind, drained.lexeme, ?_, ?_, ?_⟩
    · rw [settled, drained.rest] at position
      rw [settled]
      exact position
    · rw [settled]
      exact drained.next
    · rw [settled]
      exact drained.tokens

/-- Behind the stray character on the second line a number is read, which is not a numeral. -/
theorem resumes_behindStray :
    let scan := (ofText "true\n@1²").tokens.2
    Reached "true\n@1²" scan ∧
      scan.tokens.1 = [⟨.number, some "1²", .nil, 2⟩, ⟨.endOfInput, none, .nil, 2⟩] ∧
      scan.tokens.2.diagnostics = [⟨2, .invalidNumber "1²"⟩] := by
  intro scan
  have reached : Reached "true\n@1²" scan := .tokens .fresh
  have left : String.ofList ("true\n@1²".toList.drop scan.position) = "1²" := by decide +kernel
  have line : scan.line = 2 := by decide +kernel
  have before : scan.diagnostics = [] := by decide +kernel
  have alone :
      (ofText "1²").tokens.1 =
        [⟨.number, some "1²", .nil, 1⟩, ⟨.endOfInput, none, .nil, 1⟩] := by
    decide +kernel
  have recorded : (ofText "1²").tokens.2.diagnostics = [⟨1, .invalidNumber "1²"⟩] := by
    decide +kernel
  obtain ⟨_, tokens, diagnostics, _⟩ := reached.resumes
  rw [left, line] at tokens diagnostics
  refine ⟨reached, ?_, ?_⟩
  · rw [tokens, alone]
    rfl
  · rw [diagnostics, before, recorded]
    rfl

end Scan

end LoxSyntax
