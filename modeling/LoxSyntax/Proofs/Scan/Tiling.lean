import LoxSyntax.Proofs.Scan.Gap
import LoxSyntax.Proofs.Scan.Reading

/-!
# Tokens tile a text

The lexemes of the tokens of a text, with the gaps between them, make up the text again, up to a
character that begins no token.  Every character is accounted for once (`tiling_tokens`).
-/

namespace LoxSyntax

/-- A character that can stand neither in a gap nor at the beginning of a token. -/
structure Stray (character : Char) : Prop where
  notBlank : ¬ Text.isBlank character
  notMark : character ∉ TokenKind.marks.map Prod.fst
  notPair : character ∉ TokenKind.pairs.map Prod.fst
  notSlash : character ≠ '/'
  notQuote : character ≠ '"'
  notDigit : ¬ Text.isDigit character
  notLetter : ¬ Text.isLetter character

/-- `Tiling text tokens` when `text` consists of gaps and of the lexemes of `tokens`.  The last
token ends the input: at the end of the text, without a lexeme, or at a stray character, which
is its lexeme and behind which anything may follow. -/
inductive Tiling : List Char → List Token → Prop
  | ended {gap : List Char} {last : Token} :
      Gap [] gap →
      last.kind = .endOfInput →
      last.lexeme = none →
      Tiling gap [last]
  | cut {gap rest : List Char} {character : Char} {last : Token} :
      Gap (character :: rest) gap →
      Stray character →
      last.kind = .endOfInput →
      last.lexeme = some (String.ofList [character]) →
      Tiling (gap ++ character :: rest) [last]
  | token {gap lexeme rest : List Char} {token : Token} {tokens : List Token} :
      Gap (lexeme ++ rest) gap →
      lexeme ≠ [] →
      token.kind ≠ .endOfInput →
      token.lexeme = some (String.ofList lexeme) →
      Tiling rest tokens →
      Tiling (gap ++ (lexeme ++ rest)) (token :: tokens)

/-- Only the last token of a tiling ends the input. -/
theorem Tiling.eq_append_last
    {text : List Char} {tokens : List Token} (tiling : Tiling text tokens) :
    ∃ others last, tokens = others ++ [last] ∧ last.kind = .endOfInput ∧
      ∀ token ∈ others, token.kind ≠ .endOfInput := by
  induction tiling with
  | ended _ isEnd => exact ⟨[], _, rfl, isEnd, by simp⟩
  | cut _ _ isEnd => exact ⟨[], _, rfl, isEnd, by simp⟩
  | @token gap lexeme rest token tokens _ _ goesOn _ _ ih =>
      obtain ⟨others, last, rfl, isEnd, otherKinds⟩ := ih
      refine ⟨token :: others, last, rfl, isEnd, ?_⟩
      simpa using ⟨goesOn, otherKinds⟩

theorem TokenKind.ofWord_eq_or_mem (word : String) :
    ofWord word = .identifier ∨ (word, ofWord word) ∈ keywords :=
  (eq_ofWord_iff.1 rfl).symm.imp_left And.left

/-- A word is neither a number nor the end of the input. -/
theorem TokenKind.ofWord_proper (word : String) :
    ofWord word ≠ .number ∧ ofWord word ≠ .endOfInput := by
  have each : ∀ entry ∈ keywords, entry.2 ≠ .number ∧ entry.2 ≠ .endOfInput := by decide
  rcases ofWord_eq_or_mem word with isIdentifier | isKeyword
  · rw [isIdentifier]
    decide
  · exact each _ isKeyword

/-- Only a digit opens a number, and only a stray character ends the input. -/
theorem Opening.eq_of_kind
    {opening : Opening} {character : Char} (admits : opening.Admits character)
    (text : List Char) :
    (opening.kind text = .number → opening = digit) ∧
      (opening.kind text = .endOfInput → opening = unknown) := by
  cases opening with
  | mark kind =>
      have each :
          ∀ entry ∈ TokenKind.marks, entry.2 ≠ .number ∧ entry.2 ≠ .endOfInput := by
        decide
      simpa [Opening.kind] using each _ admits
  | pair double single =>
      have each : ∀ entry ∈ TokenKind.pairs,
          (entry.2.1 ≠ .number ∧ entry.2.1 ≠ .endOfInput) ∧
            entry.2.2 ≠ .number ∧ entry.2.2 ≠ .endOfInput := by
        decide
      obtain ⟨properDouble, properSingle⟩ := each _ admits
      rw [Opening.kind]
      split
      · simpa using properSingle
      · simpa using properDouble
  | letter => simpa [Opening.kind] using TokenKind.ofWord_proper (String.ofList text)
  | slash | quote | digit | unknown => simp [Opening.kind]

theorem Opening.kind_ne_endOfInput
    {opening : Opening} {character : Char} (admits : opening.Admits character)
    (known : opening ≠ .unknown) (text : List Char) :
    opening.kind text ≠ .endOfInput := by
  intro ends
  exact known ((Opening.eq_of_kind admits text).2 ends)

namespace Scan

theorem rest_next_of_cons
    {scan : Scan} {character : Char} {rest : List Char}
    (behind : scan.rest.drop (Layout.leading scan.rest).length = character :: rest) :
    scan.next.2.rest = rest.drop ((Opening.ofChar character).tail rest).length := by
  have ahead : scan.skipLayout.setMark.rest = character :: rest := behind
  rw [(next_of_cons behind).2.2, forward, ahead]
  rfl

theorem ofChar_of_next_ends
    {scan : Scan} {character : Char} {rest : List Char}
    (behind : scan.rest.drop (Layout.leading scan.rest).length = character :: rest)
    (ends : scan.next.1.kind = .endOfInput) :
    Opening.ofChar character = .unknown := by
  apply Decidable.byContradiction
  intro known
  rw [(next_of_cons behind).1] at ends
  exact Opening.kind_ne_endOfInput (Opening.admits_ofChar character) known _ ends

/-- A token that does not end the input is opened by a character behind the layout. -/
theorem exists_cons_of_next
    {scan : Scan} (goesOn : scan.next.1.kind ≠ .endOfInput) :
    ∃ character rest,
      scan.rest.drop (Layout.leading scan.rest).length = character :: rest ∧
        Opening.ofChar character ≠ .unknown := by
  cases behind : scan.rest.drop (Layout.leading scan.rest).length with
  | nil => exact absurd (congrArg (·.1.kind) (next_of_nil behind)) goesOn
  | cons character rest =>
      refine ⟨character, rest, rfl, ?_⟩
      intro unknown
      rw [(next_of_cons behind).1, unknown] at goesOn
      exact goesOn rfl

/-- A token that ends the input at a character has the character as its lexeme. -/
theorem stray_of_next_ends
    {scan : Scan} {character : Char} {rest : List Char}
    (behind : scan.rest.drop (Layout.leading scan.rest).length = character :: rest)
    (ends : scan.next.1.kind = .endOfInput) :
    Stray character ∧ scan.next.1.lexeme = some (String.ofList [character]) := by
  have unknown := ofChar_of_next_ends behind ends
  obtain ⟨notMark, notPair, notSlash, notQuote, notDigit, notLetter⟩ :=
    Opening.ofChar_eq_iff.1 unknown
  refine ⟨⟨(Layout.not_layout_of_behind behind).1, notMark, notPair, notSlash, notQuote,
    notDigit, notLetter⟩, ?_⟩
  rw [(next_of_cons behind).2.1, unknown]
  rfl

/-- The tokens that a scan reads tile what it has in front of it. -/
theorem tiling_tokens (scan : Scan) : Tiling scan.rest scan.tokens.1 := by
  fun_induction Scan.tokens scan with
  | case1 scan step ends =>
      have split := Layout.leading_append_drop scan.rest
      have gap := Layout.gap_leading scan.rest
      cases behind : scan.rest.drop (Layout.leading scan.rest).length with
      | nil =>
          rw [behind] at split gap
          rw [← split, List.append_nil]
          exact .ended gap ends (congrArg (·.1.lexeme) (next_of_nil behind))
      | cons character rest =>
          obtain ⟨stray, lexeme⟩ := stray_of_next_ends behind ends
          rw [behind] at split gap
          rw [← split]
          exact .cut gap stray ends lexeme
  | case2 scan step goesOn later ih =>
      have split := Layout.leading_append_drop scan.rest
      have gap := Layout.gap_leading scan.rest
      obtain ⟨character, rest, behind, _⟩ := exists_cons_of_next goesOn
      obtain ⟨_, lexeme, _⟩ := next_of_cons behind
      have taken := List.prefix_iff_eq_append.1
        (Opening.tail_isPrefix (Opening.ofChar character) rest)
      rw [rest_next_of_cons behind] at ih
      rw [behind, ← taken] at split gap
      rw [← split]
      exact .token gap (List.cons_ne_nil _ _) goesOn lexeme ih

end Scan

/-- The tokens of a source text tile it, and only the last of them ends the input. -/
theorem Token.tiling_ofSource (source : String) :
    Tiling source.toList (Token.ofSource source) ∧
      ∃ others last, Token.ofSource source = others ++ [last] ∧ last.kind = .endOfInput ∧
        ∀ token ∈ others, token.kind ≠ .endOfInput := by
  have tiling := (Scan.ofText source).tiling_tokens
  exact ⟨tiling, tiling.eq_append_last⟩

end LoxSyntax
