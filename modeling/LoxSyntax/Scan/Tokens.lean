import LoxSyntax.Scan.Basic

/-!
# Reading tokens

The first character of a token decides how the rest of it is read.  A character that opens no
token is read and ends the stream like the end of the text does, but with a lexeme; reading
may go on behind it.

`Scan.tokens` reads up to the first token that ends the stream, and ends because every other
token takes at least one character.
-/

namespace LoxSyntax

/-- What the first character of a token says about the rest. -/
inductive Opening where
  /-- A token of one character. -/
  | mark (kind : TokenKind)
  /-- A token of one character, or of two if an equals sign follows. -/
  | pair (double single : TokenKind)
  | slash
  | quote
  | digit
  | letter
  | unknown
deriving DecidableEq, Repr

/-- What a character says as the first one of a token. -/
def Opening.ofChar (character : Char) : Opening :=
  match TokenKind.marks.lookup character, TokenKind.pairs.lookup character with
  | some kind, _ => mark kind
  | none, some (double, single) => pair double single
  | none, none =>
      if character = '/' then slash
      else if character = '"' then quote
      else if Text.isDigit character then digit
      else if Text.isLetter character then letter
      else unknown

namespace Scan

/-- Reads the rest of the token whose first character has just been read. -/
def readRest (scan : Scan) : Opening → Token × Scan
  | .mark kind => (scan.make kind .nil, scan)
  | .pair double single =>
      let (isDouble, next) := scan.accept ['=']
      (next.make (if isDouble then double else single) .nil, next)
  | .slash => (scan.make .slash .nil, scan)
  | .quote => scan.readString
  | .digit => scan.readNumber
  | .letter => scan.readWord
  | .unknown => (scan.make .endOfInput .nil, scan)

/-- Reads one token, after the layout in front of it. -/
def next (scan : Scan) : Token × Scan :=
  let scan := scan.skipLayout.setMark
  match scan.rest with
  | [] => (⟨.endOfInput, none, .nil, scan.line⟩, scan)
  | character :: _ => scan.advance.readRest (Opening.ofChar character)

theorem length_rest_readRest_le (scan : Scan) (opening : Opening) :
    (scan.readRest opening).2.rest.length ≤ scan.rest.length := by
  cases opening with
  | mark kind => exact Nat.le_refl _
  | pair double single => exact length_rest_accept_le scan ['=']
  | slash => exact Nat.le_refl _
  | quote => exact length_rest_readString_le scan
  | digit => exact length_rest_readNumber_le scan
  | letter => exact length_rest_readWord_le scan
  | unknown => exact Nat.le_refl _

/-- A token that does not end the stream takes at least one character. -/
theorem length_rest_next_lt (scan : Scan) (goes_on : scan.next.1.kind ≠ .endOfInput) :
    scan.next.2.rest.length < scan.rest.length := by
  have layout : scan.skipLayout.setMark.rest.length ≤ scan.rest.length :=
    length_rest_forward_le scan _
  unfold next at goes_on ⊢
  simp only at goes_on ⊢
  split at goes_on
  · exact absurd rfl goes_on
  · rename_i character rest equality
    have further := length_rest_readRest_le scan.skipLayout.setMark.advance
      (Opening.ofChar character)
    have one := length_rest_advance scan.skipLayout.setMark
    simp only [equality, List.length_cons] at layout one ⊢
    omega

/-- Reads tokens up to the first one that ends the stream, and that one too. -/
def tokens (scan : Scan) : List Token × Scan :=
  let step := scan.next
  if _ends : step.1.kind = .endOfInput then ([step.1], step.2)
  else
    let later := tokens step.2
    (step.1 :: later.1, later.2)
termination_by scan.rest.length
decreasing_by exact length_rest_next_lt scan _ends

end Scan

def Token.ofSource (source : String) : List Token :=
  (Scan.ofText source).tokens.1

end LoxSyntax
