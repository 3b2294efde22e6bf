import LoxSyntax.Proofs.Scan.Movement

/-!
# The longest match

However a scan of a text has been moved, what it has in front of it is the text behind its
position (`Over.after`).  So the next token can be found in the text, between the mark and the
position that the scan has behind it, and it is the longest lexeme there
(`longestLexeme_of_next`).
-/

namespace LoxSyntax.Scan

/-- Whether a scan has in front of it what stands in a text behind its position. -/
def Over (text : List Char) (scan : Scan) : Prop :=
  scan.rest = text.drop scan.position

namespace Over

variable {text : List Char} {scan : Scan}

theorem ofText (source : String) : Over source.toList (Scan.ofText source) :=
  rfl

theorem forward (isOver : Over text scan) (count : Nat) : Over text (scan.forward count) := by
  have ahead : scan.rest = text.drop scan.position := isOver
  by_cases enough : count ≤ scan.rest.length
  · rw [Over, Scan.forward, List.length_take, Nat.min_eq_left enough, ahead, List.drop_drop]
  · have all : scan.rest.length ≤ count := Nat.le_of_not_le enough
    have reached : text.length ≤ scan.position + scan.rest.length := by
      rw [ahead, List.length_drop]
      omega
    rw [Over, Scan.forward, List.take_of_length_le all, List.drop_eq_nil_of_le all,
      List.drop_eq_nil_of_le reached]

theorem advance (isOver : Over text scan) : Over text scan.advance := by
  have ahead : scan.rest = text.drop scan.position := isOver
  rw [Over, Scan.advance, ahead, List.drop_drop]

/-- Only the position and what is in front of it count. -/
theorem congr
    {other : Scan} (isOver : Over text scan)
    (position : other.position = scan.position) (rest : other.rest = scan.rest) :
    Over text other := by
  rw [Over, position, rest]
  exact isOver

theorem moves
    {tokens : List Token} {behind : Scan} (isOver : Over text scan)
    (moves : Moves scan tokens behind) :
    Over text behind := by
  induction moves with
  | done => exact isOver
  | forward count _ ih => exact ih (isOver.forward count)
  | advance _ ih => exact ih isOver.advance
  | setMark _ ih | answer _ _ ih => exact ih (isOver.congr rfl rfl)

theorem after (isOver : Over text scan) (operations : List Operation) :
    Over text (scan.after operations) :=
  isOver.moves (moves_after scan operations)

end Over

/-- Behind a token the mark stands in front of its characters and the position behind them. -/
theorem Over.slice_of_next
    {text rest : List Char} {scan : Scan} {character : Char} (isOver : Over text scan)
    (behind : scan.rest.drop (Layout.leading scan.rest).length = character :: rest) :
    text.drop scan.next.2.mark = character :: rest ∧
      scan.next.2.position =
        scan.next.2.mark + (character :: (Opening.ofChar character).tail rest).length ∧
      scan.next.2.position ≤ text.length ∧
      text.extract scan.next.2.mark scan.next.2.position =
        character :: (Opening.ofChar character).tail rest := by
  have layout : Over text scan.skipLayout := isOver.forward _
  have ahead : text.drop scan.skipLayout.position = character :: rest := by
    rw [← layout]
    exact behind
  have taken : character :: (Opening.ofChar character).tail rest <+: character :: rest :=
    (List.prefix_cons_inj character).2 (Opening.tail_isPrefix _ rest)
  have cut := List.prefix_iff_eq_take.1 taken
  have mark : scan.next.2.mark = scan.skipLayout.position := by
    rw [(next_of_cons behind).2.2]
    rfl
  have position :
      scan.next.2.position =
        scan.skipLayout.position + (character :: (Opening.ofChar character).tail rest).length := by
    have moved :
        scan.next.2.position =
          scan.skipLayout.position +
            ((character :: rest).take
              (character :: (Opening.ofChar character).tail rest).length).length := by
      rw [(next_of_cons behind).2.2, ← behind]
      rfl
    rw [moved, ← cut]
  rw [mark, position]
  refine ⟨ahead, rfl, ?_, ?_⟩
  · have inside := taken.length_le
    have left := congrArg List.length ahead
    rw [List.length_drop] at left
    rw [← left] at inside
    simp only [List.length_cons] at inside ⊢
    omega
  · rw [List.extract, Nat.add_sub_cancel_left, ahead, ← cut]

/-- Over a text the next token is the longest lexeme behind the layout. -/
theorem Over.longestLexeme
    {text : List Char} {scan : Scan} (isOver : Over text scan)
    (goesOn : scan.next.1.kind ≠ .endOfInput) :
    scan.next.2.mark ≤ scan.next.2.position ∧ scan.next.2.position ≤ text.length ∧
      scan.next.1.lexeme =
        some (String.ofList (text.extract scan.next.2.mark scan.next.2.position)) ∧
      LongestLexeme (text.drop scan.next.2.mark) scan.next.1.kind
        (text.extract scan.next.2.mark scan.next.2.position) ∧
      ¬ ['/', '/'] <+: text.drop scan.next.2.mark := by
  obtain ⟨character, rest, behind, known⟩ := exists_cons_of_next goesOn
  obtain ⟨kind, lexeme, _⟩ := next_of_cons behind
  obtain ⟨ahead, moved, inside, slice⟩ := isOver.slice_of_next behind
  refine ⟨?_, inside, ?_, ?_, ?_⟩
  · rw [moved]
    exact Nat.le_add_right _ _
  · rw [slice]
    exact lexeme
  · rw [slice, ahead, kind]
    exact longestLexeme_cons_tail known rest
  · rw [ahead]
    exact (Layout.not_layout_of_behind behind).2

/-- However a scan of a text has been moved, the token that it reads next is the longest lexeme
of the text from the mark on, and no comment begins there. -/
theorem longestLexeme_of_next
    {source : String} {operations : List Operation}
    (goesOn : ((ofText source).after operations).next.1.kind ≠ .endOfInput) :
    let token := ((ofText source).after operations).next.1
    let mark := ((ofText source).after operations).next.2.mark
    let position := ((ofText source).after operations).next.2.position
    mark ≤ position ∧ position ≤ source.toList.length ∧
      token.lexeme = some (String.ofList (source.toList.extract mark position)) ∧
      LongestLexeme (source.toList.drop mark) token.kind
        (source.toList.extract mark position) ∧
      ¬ ['/', '/'] <+: source.toList.drop mark :=
  ((Over.ofText source).after operations).longestLexeme goesOn

/-- Behind a word with a dash and a comment the two characters of an operator belong together. -/
theorem longestLexeme_lessEqual :
    ((ofText "half-life//!\n<=2").after [.next]).next.1.kind ≠ .endOfInput ∧
      LongestLexeme ['<', '=', '2'] .lessEqual ['<', '='] := by
  have goesOn : ((ofText "half-life//!\n<=2").after [.next]).next.1.kind ≠ .endOfInput := by
    decide
  obtain ⟨_, _, _, longest, _⟩ := longestLexeme_of_next goesOn
  have ahead :
      "half-life//!\n<=2".toList.drop
        ((ofText "half-life//!\n<=2").after [.next]).next.2.mark = ['<', '=', '2'] := by
    decide
  have slice :
      "half-life//!\n<=2".toList.extract
        ((ofText "half-life//!\n<=2").after [.next]).next.2.mark
        ((ofText "half-life//!\n<=2").after [.next]).next.2.position = ['<', '='] := by
    decide
  have kind : ((ofText "half-life//!\n<=2").after [.next]).next.1.kind = .lessEqual := by
    decide
  rw [ahead, slice, kind] at longest
  exact ⟨goesOn, longest⟩

end LoxSyntax.Scan
