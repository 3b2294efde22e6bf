import LoxSyntax.Proofs.Lines
import LoxSyntax.Proofs.Scan.Tiling

/-!
# The lexemes that a scan yields

`Yields scan lexemes` says that a scan reads the tokens of the given lexemes, on whatever lines,
and then one that ends the input, and that the problems it records are those of the lexemes.

A scan always yields lexemes (`exists_yields`), and these are the spellings of its tokens
(`Yields.lexemes_eq`).
-/

namespace LoxSyntax

/-- How a lexeme opens. -/
def Opening.ofLexeme : List Char → Opening
  | [] => unknown
  | character :: _ => ofChar character

/-- The token of a lexeme that ends on the given line. -/
def Token.ofLexeme (line : Int) (lexeme : List Char) : Token :=
  (Opening.ofLexeme lexeme).token lexeme line

def Problem.ofLexeme (lexeme : List Char) : List Problem :=
  (Opening.ofLexeme lexeme).problems lexeme

/-- The characters of a token, of which one without a lexeme has none. -/
def Token.spelling (token : Token) : List Char :=
  (token.lexeme.getD "").toList

/-- The tokens that do not end the input. -/
def Token.beforeEnd (tokens : List Token) : List Token :=
  tokens.filter fun token => token.kind ≠ .endOfInput

/-- The characters of each token that does not end the input. -/
def Token.spellings (tokens : List Token) : List (List Char) :=
  (beforeEnd tokens).map spelling

theorem Token.beforeEnd_of_ends {token : Token} (isEnd : token.kind = .endOfInput) :
    beforeEnd [token] = [] := by
  simp [beforeEnd, isEnd]

theorem Token.beforeEnd_cons
    {token : Token} (goesOn : token.kind ≠ .endOfInput) (tokens : List Token) :
    beforeEnd (token :: tokens) = token :: beforeEnd tokens := by
  simp [beforeEnd, goesOn]

/-- The tokens of a source text are those in front of the end and the one at the end. -/
theorem Token.ofSource_eq_append_last (source : String) :
    ∃ last, ofSource source = beforeEnd (ofSource source) ++ [last] ∧
      last.kind = .endOfInput := by
  obtain ⟨others, last, equality, isEnd, goOn⟩ :=
    (Scan.ofText source).tiling_tokens.eq_append_last
  have whole : ofSource source = others ++ [last] := equality
  have proper : beforeEnd (ofSource source) = others := by
    rw [whole, beforeEnd, List.filter_append, List.filter_eq_self.2 (by simpa using goOn)]
    simp [isEnd]
  exact ⟨last, by rw [proper, whole], isEnd⟩

theorem Token.spelling_ofLexeme (line : Int) (lexeme : List Char) :
    (ofLexeme line lexeme).spelling = lexeme :=
  String.toList_ofList

theorem Lexeme.exists_cons {kind : TokenKind} {lexeme : List Char} (isLexeme : Lexeme kind lexeme) :
    ∃ character others, lexeme = character :: others := by
  cases isLexeme <;> exact ⟨_, _, rfl⟩

theorem Lexeme.kind_ofLexeme
    {kind : TokenKind} {lexeme : List Char} (isLexeme : Lexeme kind lexeme) (line : Int) :
    (Token.ofLexeme line lexeme).kind = kind := by
  obtain ⟨character, others, rfl⟩ := isLexeme.exists_cons
  exact isLexeme.kind_eq.symm

/-- A lexeme does not begin with a stray character. -/
theorem Lexeme.ofChar_ne_unknown
    {kind : TokenKind} {character : Char} {others : List Char}
    (isLexeme : Lexeme kind (character :: others)) :
    Opening.ofChar character ≠ .unknown := by
  have opens : ∃ opening : Opening, opening.Admits character ∧ opening ≠ .unknown := by
    cases isLexeme with
    | mark member => exact ⟨.mark _, member, nofun⟩
    | single member => exact ⟨.pair _ _, member, nofun⟩
    | double member => exact ⟨.pair _ _, member, nofun⟩
    | slash => exact ⟨.slash, rfl, nofun⟩
    | unclosedString => exact ⟨.quote, rfl, nofun⟩
    | closedString => exact ⟨.quote, rfl, nofun⟩
    | whole isDigit => exact ⟨.digit, isDigit, nofun⟩
    | fraction isDigit => exact ⟨.digit, isDigit, nofun⟩
    | word isLetter => exact ⟨.letter, isLetter, nofun⟩
  obtain ⟨opening, admits, known⟩ := opens
  rw [Opening.ofChar_eq_iff.2 admits]
  exact known

/-- The lexeme of a number consists of digits and of at most one point behind the first. -/
theorem Lexeme.number_cases
    {kind : TokenKind} {text : List Char}
    (isLexeme : Lexeme kind text) (isNumber : kind = .number) :
    ∃ first digits,
      (∀ digit ∈ first :: digits, Text.isDigit digit) ∧
        (text = first :: digits ∨
          ∃ decimals : List Char,
            (∀ digit ∈ decimals, Text.isDigit digit) ∧
              text = first :: (digits ++ '.' :: decimals)) := by
  cases isLexeme with
  | mark member =>
      have each : ∀ entry ∈ TokenKind.marks, entry.2 ≠ .number := by decide
      exact absurd isNumber (each _ member)
  | single member =>
      have each : ∀ entry ∈ TokenKind.pairs, entry.2.2 ≠ .number := by decide
      exact absurd isNumber (each _ member)
  | double member =>
      have each : ∀ entry ∈ TokenKind.pairs, entry.2.1 ≠ .number := by decide
      exact absurd isNumber (each _ member)
  | slash | unclosedString | closedString => cases isNumber
  | @whole first digits isDigit areDigits =>
      exact ⟨first, digits, List.forall_mem_cons.2 ⟨isDigit, areDigits⟩, Or.inl rfl⟩
  | @fraction first digits decimals isDigit areDigits areDecimals =>
      exact ⟨first, digits, List.forall_mem_cons.2 ⟨isDigit, areDigits⟩,
        Or.inr ⟨decimals, areDecimals, rfl⟩⟩
  | word _ _ named =>
      rw [TokenKind.eq_ofWord_iff.2 named] at isNumber
      exact absurd isNumber (TokenKind.ofWord_proper _).1

/-- `Yields scan lexemes` when the tokens that a scan reads up to the end, and the problems that
it records with them, are those of the lexemes. -/
structure Yields (scan : Scan) (lexemes : List (List Char)) : Prop where
  tokens :
    (Token.beforeEnd scan.tokens.1).map (Token.mapLine toFirstLine) =
      lexemes.map (Token.ofLexeme 1)
  problems :
    scan.tokens.2.diagnostics.map Diagnostic.problem =
      scan.diagnostics.map Diagnostic.problem ++ lexemes.flatMap Problem.ofLexeme

namespace Scan

theorem tokens_of_ends {scan : Scan} (ends : scan.next.1.kind = .endOfInput) :
    scan.tokens = ([scan.next.1], scan.next.2) := by
  rw [tokens, dif_pos ends]

theorem tokens_of_ne {scan : Scan} (goesOn : scan.next.1.kind ≠ .endOfInput) :
    scan.tokens = (scan.next.1 :: scan.next.2.tokens.1, scan.next.2.tokens.2) := by
  rw [tokens, dif_neg goesOn]

theorem tokens_of_next
    {scan : Scan} {token : Token} (read : scan.next.1 = token)
    (goesOn : token.kind ≠ .endOfInput) :
    scan.tokens.1 = token :: scan.next.2.tokens.1 := by
  subst read
  rw [tokens_of_ne goesOn]

theorem tokens_of_next_ends
    {scan : Scan} {token : Token} (read : scan.next.1 = token)
    (isEnd : token.kind = .endOfInput) :
    scan.tokens.1 = [token] := by
  subst read
  rw [tokens_of_ends isEnd]

theorem tokens_of_rest_eq_nil {scan : Scan} (ended : scan.rest = []) :
    ∃ last, scan.tokens.1 = [last] ∧ last.kind = .endOfInput ∧ last.lexeme = none := by
  have behind : scan.rest.drop (Layout.leading scan.rest).length = [] := by
    rw [ended]
    rfl
  have read := next_of_nil behind
  have ends : scan.next.1.kind = .endOfInput := congrArg (·.1.kind) read
  exact ⟨_, congrArg Prod.fst (tokens_of_ends ends), ends, congrArg (·.1.lexeme) read⟩

/-- What holds of a scan in front of the end, and of one if it holds behind its next token, holds
of every scan. -/
@[elab_as_elim]
theorem induction_next
    {motive : Scan → Prop}
    (ends : ∀ scan : Scan, scan.next.1.kind = .endOfInput → motive scan)
    (goesOn : ∀ scan : Scan, scan.next.1.kind ≠ .endOfInput → motive scan.next.2 → motive scan)
    (scan : Scan) :
    motive scan := by
  fun_induction Scan.tokens scan with
  | case1 scan step atEnd => exact ends scan atEnd
  | case2 scan step notAtEnd later ih => exact goesOn scan notAtEnd ih

/-- Nothing is recorded where the input ends. -/
theorem diagnostics_next_of_ends {scan : Scan} (ends : scan.next.1.kind = .endOfInput) :
    scan.next.2.diagnostics = scan.diagnostics := by
  cases behind : scan.rest.drop (Layout.leading scan.rest).length with
  | nil =>
      rw [next_of_nil behind]
      rfl
  | cons character rest =>
      rw [next_eq behind, ofChar_of_next_ends behind ends]
      exact List.append_nil _

end Scan

namespace Yields

variable {scan : Scan}

theorem nil (ends : scan.next.1.kind = .endOfInput) : Yields scan [] := by
  have read := Scan.tokens_of_ends ends
  refine ⟨?_, ?_⟩
  · rw [read, Token.beforeEnd_of_ends ends]
    rfl
  · rw [read, Scan.diagnostics_next_of_ends ends]
    exact (List.append_nil _).symm

theorem cons
    {character : Char} {rest : List Char} {lexemes : List (List Char)}
    (behind : scan.rest.drop (Layout.leading scan.rest).length = character :: rest)
    (known : Opening.ofChar character ≠ .unknown) (later : Yields scan.next.2 lexemes) :
    Yields scan ((character :: (Opening.ofChar character).tail rest) :: lexemes) := by
  have goesOn : scan.next.1.kind ≠ .endOfInput := by
    rw [(Scan.next_of_cons behind).1]
    exact Opening.kind_ne_endOfInput (Opening.admits_ofChar character) known _
  have read := Scan.tokens_of_ne goesOn
  have next := Scan.next_eq behind
  refine ⟨?_, ?_⟩
  · rw [read, Token.beforeEnd_cons goesOn, List.map_cons, later.tokens, next]
    rfl
  · rw [read, later.problems, next]
    simp [Problem.ofLexeme, Opening.ofLexeme, Function.comp_def]

/-- A scan yields a lexeme for each token that does not end the input. -/
theorem lexemes_eq {lexemes : List (List Char)} (yields : Yields scan lexemes) :
    lexemes = Token.spellings scan.tokens.1 := by
  have spelled := congrArg (List.map Token.spelling) yields.tokens
  rw [List.map_map, List.map_map] at spelled
  have whole : lexemes.map (Token.spelling ∘ Token.ofLexeme 1) = lexemes := by
    simp [Function.comp_def, Token.spelling_ofLexeme]
  exact whole.symm.trans spelled.symm

/-- Each lexeme that a scan yields is that of a token. -/
theorem exists_token
    {lexemes : List (List Char)} (yields : Yields scan lexemes)
    {lexeme : List Char} (member : lexeme ∈ lexemes) :
    ∃ token ∈ scan.tokens.1,
      token.kind = (Token.ofLexeme 1 lexeme).kind ∧ token.spelling = lexeme := by
  have mapped : Token.ofLexeme 1 lexeme ∈ lexemes.map (Token.ofLexeme 1) :=
    List.mem_map_of_mem member
  rw [← yields.tokens] at mapped
  obtain ⟨token, tokenMember, equality⟩ := List.mem_map.1 mapped
  have kind : token.kind = (Token.ofLexeme 1 lexeme).kind := by
    rw [← equality]
    rfl
  have spelling : token.spelling = (Token.ofLexeme 1 lexeme).spelling := by
    rw [← equality]
    rfl
  refine ⟨token, (List.mem_filter.1 tokenMember).1, kind, ?_⟩
  rw [spelling, Token.spelling_ofLexeme]

end Yields

/-- A scan yields lexemes. -/
theorem exists_yields (scan : Scan) :
    ∃ lexemes, Yields scan lexemes ∧ ∀ lexeme ∈ lexemes, ∃ kind, Lexeme kind lexeme := by
  fun_induction Scan.tokens scan with
  | case1 scan step ends => exact ⟨[], .nil ends, by simp⟩
  | case2 scan step goesOn later ih =>
      obtain ⟨lexemes, yields, areLexemes⟩ := ih
      obtain ⟨character, rest, behind, known⟩ := Scan.exists_cons_of_next goesOn
      refine ⟨_, yields.cons behind known, ?_⟩
      rintro lexeme (_ | ⟨_, later⟩)
      · exact ⟨_, lexeme_cons_tail (Opening.admits_ofChar character) known rest⟩
      · exact areLexemes lexeme later

end LoxSyntax
