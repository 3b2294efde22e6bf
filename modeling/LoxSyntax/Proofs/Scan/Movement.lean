import LoxSyntax.Proofs.Scan.Tiling

/-!
# What can be done with a scan

A scan can be moved in many ways, in any order and also behind the end of its text.  All of them
come down to a few: reading characters, setting the mark, and answering with a token on the line
that has been reached, when the problem with the token is recorded as well.

`Moves scan tokens behind` says that a scan gets to `behind` like this and answers with `tokens`
on the way.  Each operation moves a scan (`Operation.moves`), and so do operations in a row
(`moves_after`), so that what the few movements keep is kept by all of them.
-/

namespace LoxSyntax

/-- What is recorded with a token: a number without a value is not a numeral. -/
def Token.complaints (token : Token) : List Diagnostic :=
  if token.kind = .number ∧ token.value = .nil then
    [⟨token.line, .invalidNumber (token.lexeme.getD "")⟩]
  else []

theorem Token.complaints_of_ne
    {token : Token} (notNumber : token.kind ≠ .number) :
    token.complaints = [] := by
  simp [complaints, notNumber]

namespace Opening

theorem complaints_number (lexeme : List Char) (line : Int) :
    (digit.token lexeme line).complaints =
      (digit.problems lexeme).map fun problem => ⟨line, problem⟩ := by
  cases numeral : Binary64.ofText? lexeme with
  | some number => simp [Token.complaints, token, value, problems, numeral]
  | none => simp [Token.complaints, token, kind, value, problems, numeral]

theorem complaints_token
    {opening : Opening} {character : Char} (admits : opening.Admits character)
    (lexeme : List Char) (line : Int) :
    (opening.token lexeme line).complaints =
      (opening.problems lexeme).map fun problem => ⟨line, problem⟩ := by
  by_cases isDigit : opening = .digit
  · rw [isDigit]
    exact complaints_number lexeme line
  · have notNumber : (opening.token lexeme line).kind ≠ .number := by
      intro isNumber
      exact isDigit ((eq_of_kind admits lexeme).1 isNumber)
    have noProblem : opening.problems lexeme = [] := by
      cases opening with
      | digit => exact absurd rfl isDigit
      | _ => rfl
    rw [Token.complaints_of_ne notNumber, noProblem]
    rfl

end Opening

namespace Scan

/-- What can be done with a scan. -/
inductive Operation where
  | tokens
  | next
  | advance
  | accept (expected : List Char)
  | skipBlanks
  | skipComment
  | readString
  | readNumber
  | readWord
  | setMark
deriving DecidableEq, Repr

def Operation.apply (scan : Scan) : Operation → Scan
  | tokens => scan.tokens.2
  | next => scan.next.2
  | advance => scan.advance
  | accept expected => (scan.accept expected).2
  | skipBlanks => scan.skipBlanks
  | skipComment => scan.skipComment
  | readString => scan.readString.2
  | readNumber => scan.readNumber.2
  | readWord => scan.readWord.2
  | setMark => scan.setMark

def after (scan : Scan) (operations : List Operation) : Scan :=
  operations.foldl Operation.apply scan

/-- The tokens that an operation answers with. -/
def Operation.answers (scan : Scan) : Operation → List Token
  | tokens => scan.tokens.1
  | next => [scan.next.1]
  | readString => [scan.readString.1]
  | readNumber => [scan.readNumber.1]
  | readWord => [scan.readWord.1]
  | advance | accept _ | skipBlanks | skipComment | setMark => []

def answers (scan : Scan) : List Operation → List Token
  | [] => []
  | operation :: operations =>
      operation.answers scan ++ answers (operation.apply scan) operations

/-- Reading all tokens is reading one after the other. -/
theorem exists_tokens_eq_nexts (scan : Scan) :
    ∃ count,
      scan.tokens =
        (scan.answers (List.replicate count .next), scan.after (List.replicate count .next)) := by
  fun_induction Scan.tokens scan with
  | case1 scan step ends => exact ⟨1, rfl⟩
  | case2 scan step goesOn later ih =>
      obtain ⟨count, equality⟩ := ih
      refine ⟨count + 1, ?_⟩
      simp only [later, equality, List.replicate_succ]
      rfl

/-! ## Movements -/

/-- `Moves scan tokens behind` when a scan gets to `behind` by reading characters, by setting its
mark and by answering with `tokens`. -/
inductive Moves : Scan → List Token → Scan → Prop
  | done (scan : Scan) :
      Moves scan [] scan
  | forward {scan behind : Scan} {tokens : List Token} (count : Nat) :
      Moves (scan.forward count) tokens behind →
      Moves scan tokens behind
  | advance {scan behind : Scan} {tokens : List Token} :
      Moves scan.advance tokens behind →
      Moves scan tokens behind
  | setMark {scan behind : Scan} {tokens : List Token} :
      Moves scan.setMark tokens behind →
      Moves scan tokens behind
  | answer {scan behind : Scan} {token : Token} {tokens : List Token} :
      token.line = scan.line →
      Moves { scan with diagnostics := scan.diagnostics ++ token.complaints } tokens behind →
      Moves scan (token :: tokens) behind

namespace Moves

theorem trans
    {scan between behind : Scan} {tokens later : List Token}
    (first : Moves scan tokens between) (second : Moves between later behind) :
    Moves scan (tokens ++ later) behind := by
  induction first with
  | done => exact second
  | forward count _ ih => exact .forward count (ih second)
  | advance _ ih => exact .advance (ih second)
  | setMark _ ih => exact .setMark (ih second)
  | answer onLine _ ih => exact .answer onLine (ih second)

theorem answer_of_ne
    {scan : Scan} {token : Token} (onLine : token.line = scan.line)
    (notNumber : token.kind ≠ .number) :
    Moves scan [token] scan := by
  apply Moves.answer onLine
  rw [Token.complaints_of_ne notNumber, List.append_nil]
  exact .done scan

end Moves

section

variable (scan : Scan)

theorem moves_accept (expected : List Char) : Moves scan [] (scan.accept expected).2 := by
  unfold accept
  split
  · exact .advance (.done _)
  · exact .done scan

theorem moves_readString : Moves scan [scan.readString.1] scan.readString.2 := by
  have body : Moves scan [] scan.readString.2 := .forward _ (moves_accept _ _)
  exact body.trans (.answer_of_ne rfl TokenKind.noConfusion)

theorem moves_makeNumber : Moves scan [scan.makeNumber.1] scan.makeNumber.2 := by
  rw [makeNumber_eq, ← Opening.complaints_number]
  exact .answer rfl (.done _)

theorem moves_readNumber : Moves scan [scan.readNumber.1] scan.readNumber.2 := by
  rw [readNumber, forwardNumber_eq]
  exact .forward _ (moves_makeNumber _)

theorem moves_readWord : Moves scan [scan.readWord.1] scan.readWord.2 := by
  have body : Moves scan [] scan.readWord.2 := .forward _ (.done _)
  exact body.trans (.answer_of_ne rfl (TokenKind.ofWord_proper _).1)

theorem moves_next : Moves scan [scan.next.1] scan.next.2 := by
  cases behind : scan.rest.drop (Layout.leading scan.rest).length with
  | nil =>
      rw [next_of_nil behind]
      exact .forward _ (.setMark (.answer_of_ne rfl TokenKind.noConfusion))
  | cons character rest =>
      rw [next_eq behind, ← Opening.complaints_token (Opening.admits_ofChar character)]
      exact .forward _ (.setMark (.forward _ (.answer rfl (.done _))))

theorem moves_tokens : Moves scan scan.tokens.1 scan.tokens.2 := by
  fun_induction Scan.tokens scan with
  | case1 scan step ends => exact moves_next scan
  | case2 scan step goesOn later ih => exact (moves_next scan).trans ih

theorem Operation.moves (operation : Operation) :
    Moves scan (operation.answers scan) (operation.apply scan) := by
  cases operation with
  | tokens => exact moves_tokens scan
  | next => exact moves_next scan
  | advance => exact .advance (.done _)
  | accept expected => exact moves_accept scan expected
  | skipBlanks | skipComment => exact .forward _ (.done _)
  | readString => exact moves_readString scan
  | readNumber => exact moves_readNumber scan
  | readWord => exact moves_readWord scan
  | setMark => exact .setMark (.done _)

end

theorem moves_after (scan : Scan) (operations : List Operation) :
    Moves scan (scan.answers operations) (scan.after operations) := by
  induction operations generalizing scan with
  | nil => exact .done scan
  | cons operation operations ih =>
      exact (operation.moves scan).trans (ih (operation.apply scan))

/-! ## What movements keep -/

theorem count_take_add_count_drop (text : List Char) (count : Nat) :
    (text.take count).count '\n' + (text.drop count).count '\n' = text.count '\n' := by
  rw [← List.count_append, List.take_append_drop]

namespace Moves

variable {scan behind : Scan} {tokens : List Token}

theorem position_le (moves : Moves scan tokens behind) : scan.position ≤ behind.position := by
  induction moves with
  | done => exact Nat.le_refl _
  | forward count _ ih => exact Nat.le_trans (Nat.le_add_right _ _) ih
  | advance _ ih => exact Nat.le_trans (Nat.le_succ _) ih
  | setMark _ ih => exact ih
  | answer _ _ ih => exact ih

theorem mark_le
    (moves : Moves scan tokens behind) (before : scan.mark ≤ scan.position) :
    behind.mark ≤ behind.position := by
  induction moves with
  | done => exact before
  | forward count _ ih => exact ih (Nat.le_trans before (Nat.le_add_right _ _))
  | advance _ ih => exact ih (Nat.le_succ_of_le before)
  | setMark _ ih => exact ih (Nat.le_refl _)
  | answer _ _ ih => exact ih before

theorem lines_eq (moves : Moves scan tokens behind) :
    behind.line + behind.rest.count '\n' = scan.line + scan.rest.count '\n' := by
  induction moves with
  | done => rfl
  | @forward scan _ _ count _ ih =>
      have parts := count_take_add_count_drop scan.rest count
      simp only [Scan.forward] at ih
      omega
  | @advance scan _ _ _ ih =>
      have parts := count_take_add_count_drop scan.rest 1
      simp only [Scan.advance, current] at ih
      omega
  | setMark _ ih => exact ih
  | answer _ _ ih => exact ih

theorem line_le (moves : Moves scan tokens behind) : scan.line ≤ behind.line := by
  induction moves with
  | done => exact Nat.le_refl _
  | forward count _ ih => exact Nat.le_trans (Nat.le_add_right _ _) ih
  | advance _ ih => exact Nat.le_trans (Nat.le_add_right _ _) ih
  | setMark _ ih => exact ih
  | answer _ _ ih => exact ih

theorem line_mem
    (moves : Moves scan tokens behind) {token : Token} (member : token ∈ tokens) :
    scan.line ≤ token.line ∧ token.line ≤ behind.line := by
  induction moves with
  | done => simp at member
  | @forward scan _ _ count _ ih =>
      obtain ⟨above, below⟩ := ih member
      have further : scan.line ≤ (scan.forward count).line := Nat.le_add_right _ _
      omega
  | @advance scan _ _ _ ih =>
      obtain ⟨above, below⟩ := ih member
      have further : scan.line ≤ scan.advance.line := Nat.le_add_right _ _
      omega
  | setMark _ ih => exact ih member
  | @answer scan _ first _ onLine later ih =>
      rcases List.mem_cons.1 member with rfl | inLater
      · have further : scan.line ≤ _ := later.line_le
        omega
      · exact ih inLater

theorem pairwise_line_le (moves : Moves scan tokens behind) :
    tokens.Pairwise fun earlier later => earlier.line ≤ later.line := by
  induction moves with
  | done => exact .nil
  | forward _ _ ih | advance _ ih | setMark _ ih => exact ih
  | answer onLine later ih =>
      refine .cons ?_ ih
      intro token member
      rw [onLine]
      exact (later.line_mem member).1

/-- What is recorded is what is wrong with the tokens. -/
theorem diagnostics_eq (moves : Moves scan tokens behind) :
    behind.diagnostics = scan.diagnostics ++ tokens.flatMap Token.complaints := by
  induction moves with
  | done => simp
  | forward _ _ ih | advance _ ih | setMark _ ih => exact ih
  | answer _ _ ih => rw [ih, List.flatMap_cons, List.append_assoc]

end Moves

end Scan

end LoxSyntax
