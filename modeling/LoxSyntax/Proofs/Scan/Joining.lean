import LoxSyntax.Proofs.Scan.Extension
import LoxSyntax.Proofs.Scan.Shifting

/-!
# Joined texts

A line feed ends everything that may be open at the end of a text, words, numbers and comments,
but not a string.  So two texts with a line feed between them are read as the one and then, on
later lines, as the other (`Token.ofSource_append_line`).
-/

namespace LoxSyntax

open Layout

theorem Layout.run_append_line
    {inComment : Bool} {text : List Char} (whole : run inComment text = text)
    (more : List Char) :
    run inComment (text ++ '\n' :: more) = text ++ '\n' :: run false more := by
  fun_induction run inComment text with
  | case1 inComment =>
      cases inComment with
      | false => exact run_false_of_blank (by decide) more
      | true => rfl
  | case2 character rest ih =>
      rw [List.cons_append, run, ih (List.cons.inj whole).2]
      rfl
  | case3 rest ih =>
      rw [List.cons_append, List.cons_append, run, ih (by simpa using whole)]
      rfl
  | case4 character rest _ isBlank ih =>
      rw [List.cons_append, run_false_of_blank isBlank, ih (List.cons.inj whole).2]
      rfl
  | case5 => cases whole

theorem Opening.tail_append_of_closed
    {character : Char} {rest more : List Char}
    (known : ofChar character ≠ .unknown) (startsBlank : StartsBlank more)
    (closed : ClosedLexeme ((ofChar character).kind (character :: (ofChar character).tail rest))
      (character :: (ofChar character).tail rest)) :
    (ofChar character).tail (rest ++ more) = (ofChar character).tail rest := by
  have isPrefix := tail_isPrefix (ofChar character) rest
  by_cases inside : ((ofChar character).tail rest).length < rest.length
  · exact tail_append_of_lt inside more
  · have whole : (ofChar character).tail rest = rest :=
      isPrefix.eq_of_length_le (Nat.le_of_not_lt inside)
    have isLexeme := lexeme_cons_tail (admits_ofChar character) known rest
    rw [whole] at closed isLexeme ⊢
    exact isLexeme.tail_append closed startsBlank

namespace Scan

/-- Layout that has been read is not missed. -/
theorem tokens_forward
    {scan : Scan} {count : Nat}
    (layout : (leading scan.rest).length = count + (leading (scan.rest.drop count)).length) :
    (scan.forward count).tokens = scan.tokens := by
  have skipped : (scan.forward count).skipLayout = scan.skipLayout := by
    rw [skipLayout, forward_forward, skipLayout, layout]
    rfl
  have read : (scan.forward count).next = scan.next := by
    simp only [next, skipped]
  by_cases ends : scan.next.1.kind = .endOfInput
  · rw [tokens_of_ends ends, tokens_of_ends (by rw [read]; exact ends), read]
  · rw [tokens_of_ne ends, tokens_of_ne (by rw [read]; exact ends), read]

namespace Extended

variable {more : List Char} {scan longer : Scan}

theorem next_of_closed
    (extended : Extended more scan longer) (startsBlank : StartsBlank more)
    (goesOn : scan.next.1.kind ≠ .endOfInput)
    (closed : ClosedLexeme scan.next.1.kind scan.next.1.spelling) :
    longer.next.1 = scan.next.1 ∧ Extended more scan.next.2 longer.next.2 := by
  obtain ⟨character, rest, behind, known⟩ := exists_cons_of_next goesOn
  obtain ⟨kind, lexeme, _⟩ := next_of_cons behind
  have apart : ¬ ['/', '/'] <+: character :: more := by
    rintro ⟨later, isComment⟩
    obtain ⟨_, slash⟩ := List.cons.inj isComment
    exact startsBlank.ne_cons (by decide) later slash.symm
  rw [kind, Token.spelling, lexeme, Option.getD_some, String.toList_ofList] at closed
  exact extended.next_of_tail_eq behind (Or.inr apart)
    (Opening.tail_append_of_closed known startsBlank closed)

variable {fresh : Scan} {lines : Nat}

/-- Behind layout and a line feed a scan reads the tokens of what is there. -/
theorem tokens_of_layout
    (extended : Extended ('\n' :: more) scan longer) (whole : leading scan.rest = scan.rest)
    (ahead : fresh.rest = more)
    (line : fresh.line + lines = scan.line + scan.rest.count '\n' + 1) :
    longer.tokens.1 = fresh.tokens.1.map (Token.mapLine (shiftLine lines)) := by
  have front : longer.rest = (scan.rest ++ ['\n']) ++ more := by
    rw [extended.rest, List.append_assoc, List.singleton_append]
  have layout : leading longer.rest = scan.rest ++ '\n' :: leading more := by
    rw [extended.rest]
    exact run_append_line whole more
  -- Behind the line feed the longer scan has the same in front of it as the fresh one.
  have shifted : Shifted lines fresh (longer.forward (scan.rest ++ ['\n']).length) := by
    refine ⟨?_, ?_⟩
    · simp only [Scan.forward, front, List.drop_left, ahead]
    · simp only [Scan.forward, front, List.take_left, extended.line, List.count_append,
        List.count_singleton_self]
      omega
  have skipped : (longer.forward (scan.rest ++ ['\n']).length).tokens = longer.tokens := by
    apply tokens_forward
    rw [layout, front, List.drop_left]
    simp only [List.length_append, List.length_cons, List.length_nil]
    omega
  rw [← skipped, shifted.tokens_eq]

/-- In front of a line feed a scan reads all its tokens, and behind it the tokens of what is
there. -/
theorem tokens_of_line
    (extended : Extended ('\n' :: more) scan longer)
    (ahead : fresh.rest = more)
    (line : fresh.line + lines = scan.line + scan.rest.count '\n' + 1)
    (atEnd : ∀ last ∈ scan.tokens.1.getLast?, last.lexeme = none)
    (closed : ∀ token ∈ scan.tokens.1, ClosedLexeme token.kind token.spelling) :
    longer.tokens.1 =
      scan.tokens.1.dropLast ++ fresh.tokens.1.map (Token.mapLine (shiftLine lines)) := by
  induction scan using induction_next generalizing longer with
  | ends scan ends =>
      have noLexeme : scan.next.1.lexeme = none := atEnd _ (by rw [tokens_of_ends ends]; rfl)
      have whole : leading scan.rest = scan.rest := by
        have split := leading_append_drop scan.rest
        cases behind : scan.rest.drop (leading scan.rest).length with
        | nil =>
            rw [behind, List.append_nil] at split
            exact split
        | cons character rest =>
            rw [(stray_of_next_ends behind ends).2] at noLexeme
            cases noLexeme
      rw [tokens_of_ends ends]
      exact extended.tokens_of_layout whole ahead line
  | goesOn scan goesOn ih =>
      rw [getLast?_tokens goesOn] at atEnd
      rw [tokens_of_ne goesOn] at closed
      obtain ⟨same, further⟩ := extended.next_of_closed (.cons (by decide) more) goesOn
        (closed _ List.mem_cons_self)
      have total := (moves_next scan).lines_eq
      have later := ih further (by omega) atEnd fun token member =>
        closed token (List.mem_cons_of_mem _ member)
      rw [tokens_of_ne goesOn, tokens_of_next same goesOn, later,
        List.dropLast_cons_of_ne_nil (tokens_ne_nil _)]
      rfl

end Extended

end Scan

namespace Token

open Scan

/-- What is recorded with tokens on other lines is the same on those lines. -/
theorem complaints_mapLine (change : Int → Int) (token : Token) :
    (token.mapLine change).complaints = token.complaints.map (Diagnostic.mapLine change) := by
  by_cases invalid : token.kind = .number ∧ token.value = .nil
  · simp [complaints, mapLine, Diagnostic.mapLine, invalid]
  · simp [complaints, mapLine, invalid]

/-- Where the first text is read to its end and all its strings are closed, two texts with a line
feed between them are read one after the other: the tokens of the second text, and what is
recorded with them, stand as many lines further down as the first text has with its line feed. -/
theorem ofSource_append_line
    {first second : String}
    (atEnd : ∀ last ∈ (ofSource first).getLast?, last.lexeme = none)
    (closed : ∀ token ∈ ofSource first, ClosedLexeme token.kind token.spelling) :
    let lines := 1 + first.toList.count '\n'
    ofSource (first ++ "\n" ++ second) =
        (ofSource first).dropLast ++ (ofSource second).map (mapLine (shiftLine lines)) ∧
      (Scan.ofText (first ++ "\n" ++ second)).tokens.2.diagnostics =
        (Scan.ofText first).tokens.2.diagnostics ++
          (Scan.ofText second).tokens.2.diagnostics.map
            (Diagnostic.mapLine (shiftLine lines)) := by
  intro lines
  have extended :
      Extended ('\n' :: second.toList) (Scan.ofText first)
        (Scan.ofText (first ++ "\n" ++ second)) := by
    refine ⟨?_, rfl⟩
    simp [Scan.ofText]
  have joined :
      ofSource (first ++ "\n" ++ second) =
        (ofSource first).dropLast ++ (ofSource second).map (mapLine (shiftLine lines)) := by
    have line :
        (Scan.ofText second).line + lines =
          (Scan.ofText first).line + (Scan.ofText first).rest.count '\n' + 1 := by
      simp only [Scan.ofText, lines]
      omega
    exact extended.tokens_of_line rfl line atEnd closed
  refine ⟨joined, ?_⟩
  have front : (ofSource first).dropLast = beforeEnd (ofSource first) := by
    obtain ⟨last, split, _⟩ := ofSource_eq_append_last first
    have others := congrArg List.dropLast split
    rw [List.dropLast_concat] at others
    exact others
  have behind :
      ((ofSource second).map (mapLine (shiftLine lines))).flatMap complaints =
        ((ofSource second).flatMap complaints).map (Diagnostic.mapLine (shiftLine lines)) := by
    rw [List.flatMap_map, List.map_flatMap]
    exact congrArg (List.flatMap · _) (funext (complaints_mapLine _))
  rw [diagnostics_ofSource (first ++ "\n" ++ second), joined, List.flatMap_append, front, behind,
    diagnostics_beforeEnd first, diagnostics_ofSource second]

/-- A comment that is open at the end of a text takes nothing of the number on the next line, which
is the third one because the string in front of the comment has a line feed in it. -/
theorem ofSource_append_line_openComment :
    let first := "\"\n\"//"
    let second := "1²"
    (∀ last ∈ (ofSource first).getLast?, last.lexeme = none) ∧
      (∀ token ∈ ofSource first, ClosedLexeme token.kind token.spelling) ∧
      ofSource (first ++ "\n" ++ second) =
        [⟨.string, some "\"\n\"", .string "\n", 2⟩, ⟨.number, some "1²", .nil, 3⟩,
          ⟨.endOfInput, none, .nil, 3⟩] ∧
      (Scan.ofText (first ++ "\n" ++ second)).tokens.2.diagnostics =
        [⟨3, .invalidNumber "1²"⟩] := by
  intro first second
  have firstTokens :
      ofSource first =
        [⟨.string, some "\"\n\"", .string "\n", 2⟩, ⟨.endOfInput, none, .nil, 2⟩] := by
    decide +kernel
  have secondTokens :
      ofSource second = [⟨.number, some "1²", .nil, 1⟩, ⟨.endOfInput, none, .nil, 1⟩] := by
    decide +kernel
  have atEnd : ∀ last ∈ (ofSource first).getLast?, last.lexeme = none := by
    rw [firstTokens]
    decide
  have closed : ∀ token ∈ ofSource first, ClosedLexeme token.kind token.spelling := by
    rw [firstTokens]
    decide
  have lines : 1 + first.toList.count '\n' = 2 := by decide
  obtain ⟨tokens, diagnostics⟩ := @ofSource_append_line first second atEnd closed
  rw [lines] at tokens diagnostics
  refine ⟨atEnd, closed, ?_, ?_⟩
  · rw [tokens, firstTokens, secondTokens]
    rfl
  · rw [diagnostics, diagnostics_ofSource, diagnostics_ofSource, firstTokens, secondTokens]
    rfl

end Token

end LoxSyntax
