import LoxSyntax.Proofs.Scan.Forward

/-!
# What a token says

Everything that a token says apart from its line, and every problem with it, is settled by its
first character and its lexeme.  So a scan behind the layout can be described by one equation
(`next_eq`): the token of the lexeme, on the line where the lexeme ends, and the scan behind it.
-/

namespace LoxSyntax

attribute [ext] Token

namespace Opening

/-- The value of a token, given all its characters. -/
def value (lexeme : List Char) : Opening → Value
  | quote => .string (String.ofList ((lexeme.drop 1).takeWhile (· ≠ '"')))
  | digit =>
      match Binary64.ofText? lexeme with
      | some number => .number number
      | none => .nil
  | letter => Scan.wordValue (TokenKind.ofWord (String.ofList lexeme)) (String.ofList lexeme)
  | _ => .nil

/-- What is wrong with a token, given all its characters. -/
def problems (lexeme : List Char) : Opening → List Problem
  | digit =>
      match Binary64.ofText? lexeme with
      | some _ => []
      | none => [.invalidNumber (String.ofList lexeme)]
  | _ => []

/-- The token of the given characters, on the line where they end. -/
def token (lexeme : List Char) (line : Int) (opening : Opening) : Token :=
  ⟨opening.kind lexeme, some (String.ofList lexeme), opening.value lexeme, line⟩

theorem takeWhile_tail_quote (rest : List Char) :
    (quote.tail rest).takeWhile (· ≠ '"') = rest.takeWhile (· ≠ '"') := by
  obtain ⟨body, noQuote, rfl | ⟨later, rfl⟩⟩ := exists_body rest
  · rw [tail_quote_of_not_mem noQuote]
  · rw [tail_quote_append noQuote, takeWhile_body noQuote, takeWhile_body noQuote]

end Opening

namespace Scan

variable {scan : Scan} {character : Char}

theorem pending_forwardNumber (pending : scan.pending = [character]) :
    scan.forwardNumber.pending = character :: Opening.digit.tail scan.rest := by
  rw [forwardNumber_eq, forward,
    ← List.prefix_iff_eq_take.1 (Opening.tail_isPrefix .digit scan.rest), pending]
  rfl

/-- A number is made of what is pending, or the problem with it is recorded. -/
theorem makeNumber_eq (scan : Scan) :
    scan.makeNumber =
      (scan.make .number (Opening.digit.value scan.pending),
        { scan with
          diagnostics := scan.diagnostics ++
            (Opening.digit.problems scan.pending).map fun problem => ⟨scan.line, problem⟩ }) := by
  unfold makeNumber
  cases numeral : Binary64.ofText? scan.pending with
  | some number => simp [Opening.value, Opening.problems, numeral]
  | none => simp [Opening.value, Opening.problems, numeral, report, lexeme]

theorem value_readRest (pending : scan.pending = [character]) (opening : Opening) :
    (scan.readRest opening).1.value =
      opening.value (character :: opening.tail scan.rest) := by
  cases opening with
  | quote =>
      have body :
          (scan.forwardWhile (· ≠ '"')).pending =
            character :: scan.rest.takeWhile (· ≠ '"') := by
        rw [forwardWhile, forward, pending,
          ← List.prefix_iff_eq_take.1 (List.takeWhile_prefix _)]
        rfl
      have read :
          (scan.readRest .quote).1.value =
            .string (String.ofList ((scan.forwardWhile (· ≠ '"')).pending.drop 1)) :=
        rfl
      rw [read, body, Opening.value, List.drop_one, List.tail_cons, List.drop_one,
        List.tail_cons, Opening.takeWhile_tail_quote]
  | digit =>
      rw [readRest, readNumber, makeNumber_eq, pending_forwardNumber pending]
      rfl
  | letter =>
      have read :
          (scan.readRest .letter).1.value =
            wordValue
              (TokenKind.ofWord (String.ofList (scan.readRest .letter).2.pending))
              (String.ofList (scan.readRest .letter).2.pending) :=
        rfl
      rw [read, pending_readRest, pending]
      rfl
  | _ => rfl

theorem line_readRest (scan : Scan) (opening : Opening) :
    (scan.readRest opening).1.line = (scan.readRest opening).2.line := by
  cases opening with
  | digit =>
      rw [readRest, readNumber, makeNumber_eq]
      rfl
  | _ => rfl

theorem diagnostics_readRest (pending : scan.pending = [character]) (opening : Opening) :
    (scan.readRest opening).2.diagnostics =
      scan.diagnostics ++
        (opening.problems (character :: opening.tail scan.rest)).map fun problem =>
          ⟨(scan.readRest opening).2.line, problem⟩ := by
  cases opening with
  | pair double single =>
      by_cases ahead : scan.current = ['=']
      · simp [readRest, accept, ahead, Opening.problems, advance]
      · simp [readRest, accept, ahead, Opening.problems]
  | quote =>
      rw [readRest, readString_snd]
      simp [Opening.problems, forward]
  | digit =>
      rw [readRest, readNumber, makeNumber_eq, pending_forwardNumber pending, forwardNumber_eq]
      rfl
  | letter => simp [readRest, readWord, Opening.problems, forwardWhile, forward]
  | _ => simp [readRest, Opening.problems]

/-- The rest of a token is read up to the end of its lexeme. -/
theorem readRest_eq (pending : scan.pending = [character]) (opening : Opening) :
    let lexeme := character :: opening.tail scan.rest
    let behind := scan.forward (opening.tail scan.rest).length
    scan.readRest opening =
      (opening.token lexeme behind.line,
        { behind with
          diagnostics := scan.diagnostics ++
            (opening.problems lexeme).map fun problem => ⟨behind.line, problem⟩ }) := by
  intro lexeme behind
  have moved := readRest_snd scan opening
  have line : (scan.readRest opening).2.line = behind.line := by
    rw [moved]
  refine Prod.ext (Token.ext ?_ ?_ ?_ ?_) ?_
  · exact kind_readRest pending opening
  · rw [lexeme_readRest, pending]
    rfl
  · exact value_readRest pending opening
  · rw [line_readRest, line]
    rfl
  · rw [moved, diagnostics_readRest pending, line]

/-- Behind the layout a scan reads the token of a character and its tail. -/
theorem next_eq
    {rest : List Char}
    (behind : scan.rest.drop (Layout.leading scan.rest).length = character :: rest) :
    let opening := Opening.ofChar character
    let lexeme := character :: opening.tail rest
    let reached := scan.skipLayout.setMark.forward lexeme.length
    scan.next =
      (opening.token lexeme reached.line,
        { reached with
          diagnostics := scan.diagnostics ++
            (opening.problems lexeme).map fun problem => ⟨reached.line, problem⟩ }) := by
  intro opening lexeme reached
  have ahead : scan.skipLayout.setMark.rest = character :: rest := behind
  have first : scan.skipLayout.setMark.advance = scan.skipLayout.setMark.forward 1 :=
    advance_eq_forward ahead
  have pending : scan.skipLayout.setMark.advance.pending = [character] := by
    rw [first, forward, ahead]
    rfl
  have remaining : scan.skipLayout.setMark.advance.rest = rest := by
    rw [first, forward, ahead]
    rfl
  have reads : scan.next = scan.skipLayout.setMark.advance.readRest opening := by
    rw [next, ahead]
  rw [reads, readRest_eq pending, remaining, first, forward_forward, Nat.add_comm 1]
  rfl

/-- Behind the layout a scan reads a character and its tail. -/
theorem next_of_cons
    {rest : List Char}
    (behind : scan.rest.drop (Layout.leading scan.rest).length = character :: rest) :
    let opening := Opening.ofChar character
    let text := character :: opening.tail rest
    scan.next.1.kind = opening.kind text ∧
      scan.next.1.lexeme = some (String.ofList text) ∧
      scan.next.2 =
        { scan.skipLayout.setMark.forward text.length with
          diagnostics := scan.next.2.diagnostics } := by
  intro opening text
  rw [next_eq behind]
  exact ⟨rfl, rfl, rfl⟩

end Scan

end LoxSyntax
