import LoxSyntax.Diagnostic
import LoxSyntax.Layout
import LoxSyntax.Numeral
import LoxSyntax.Text.Digit
import LoxSyntax.Text.Letter
import LoxSyntax.Token.Basic

/-!
# A scan in progress

A scan moves a position through a text from left to right.  A *mark* remembers where the token
being read begins; the characters from the mark to the position are *pending*.

The operations of this module read single characters, runs of characters and the rest of a
token whose first character has been read.
-/

namespace LoxSyntax

structure Scan where
  /-- How many characters have been read.  Reading at the end of the text counts as well. -/
  position : Nat
  /-- The position at which the token being read begins. -/
  mark : Nat
  line : Nat
  pending : List Char
  rest : List Char
  /-- The diagnostics so far, the earliest first. -/
  diagnostics : List Diagnostic
deriving DecidableEq

namespace Scan

def ofText (text : String) : Scan where
  position := 0
  mark := 0
  line := 1
  pending := []
  rest := text.toList
  diagnostics := []

def atEnd (scan : Scan) : Bool :=
  scan.rest.isEmpty

/-- The next character as a text, which is empty at the end. -/
def current (scan : Scan) : List Char :=
  scan.rest.take 1

def setMark (scan : Scan) : Scan :=
  { scan with mark := scan.position, pending := [] }

/-- Reads one character.  At the end of the text only the position moves. -/
def advance (scan : Scan) : Scan :=
  { scan with
    position := scan.position + 1
    line := scan.line + scan.current.count '\n'
    pending := scan.pending ++ scan.current
    rest := scan.rest.drop 1 }

/-- Reads a number of characters, or up to the end of the text. -/
def forward (scan : Scan) (count : Nat) : Scan :=
  let run := scan.rest.take count
  { scan with
    position := scan.position + run.length
    line := scan.line + run.count '\n'
    pending := scan.pending ++ run
    rest := scan.rest.drop count }

/-- Reads the longest run of characters that satisfy a test. -/
def forwardWhile (scan : Scan) (test : Char → Bool) : Scan :=
  scan.forward (scan.rest.takeWhile test).length

/-- Reads the next character if it is the expected one.  The empty text stands for the end. -/
def accept (scan : Scan) (expected : List Char) : Bool × Scan :=
  if scan.current = expected then (true, scan.advance) else (false, scan)

def skipBlanks (scan : Scan) : Scan :=
  scan.forwardWhile Text.isBlank

def skipComment (scan : Scan) : Scan :=
  scan.forwardWhile fun character => !Layout.endsLine character

def skipLayout (scan : Scan) : Scan :=
  scan.forward (Layout.leading scan.rest).length

def lexeme (scan : Scan) : String :=
  String.ofList scan.pending

/-- A token of the pending characters. -/
def make (scan : Scan) (kind : TokenKind) (value : Value) : Token :=
  ⟨kind, some scan.lexeme, value, scan.line⟩

/-- Records a problem on the current line. -/
def report (scan : Scan) (problem : Problem) : Scan :=
  { scan with diagnostics := scan.diagnostics ++ [⟨scan.line, problem⟩] }

/-- Reads the rest of a string, through its closing quote if there is one.  The value is what
stands between the quotes. -/
def readString (scan : Scan) : Token × Scan :=
  let body := scan.forwardWhile (· ≠ '"')
  let closed := (body.accept ['"']).2
  (closed.make .string (.string (String.ofList (body.pending.drop 1))), closed)

/-- Reads digits, at most one point, and the digits behind it. -/
def forwardNumber (scan : Scan) : Scan :=
  let whole := scan.forwardWhile Text.isDigit
  if whole.current = ['.'] then whole.advance.forwardWhile Text.isDigit else whole

/-- A number token of the pending characters.  A lexeme that is not a numeral is recorded and
has no value. -/
def makeNumber (scan : Scan) : Token × Scan :=
  match Binary64.ofText? scan.pending with
  | some number => (scan.make .number (.number number), scan)
  | none => (scan.make .number .nil, scan.report (.invalidNumber scan.lexeme))

def readNumber (scan : Scan) : Token × Scan :=
  scan.forwardNumber.makeNumber

/-- Whether a character may stand inside a word. -/
def isWordCharacter (character : Char) : Bool :=
  Text.isLetter character || Text.isNumeric character || character = '-'

/-- The value of a word: its truth value if it names one, or else its text. -/
def wordValue (kind : TokenKind) (word : String) : Value :=
  match kind with
  | .trueWord => .bool true
  | .falseWord => .bool false
  | _ => .string word

def readWord (scan : Scan) : Token × Scan :=
  let scan := scan.forwardWhile isWordCharacter
  let kind := TokenKind.ofWord scan.lexeme
  (scan.make kind (wordValue kind scan.lexeme), scan)

theorem length_rest_advance (scan : Scan) :
    scan.advance.rest.length = scan.rest.length - 1 := by
  simp [advance]

theorem length_rest_forward_le (scan : Scan) (count : Nat) :
    (scan.forward count).rest.length ≤ scan.rest.length := by
  simp [forward]

theorem length_rest_accept_le (scan : Scan) (expected : List Char) :
    (scan.accept expected).2.rest.length ≤ scan.rest.length := by
  unfold accept
  split
  · simp [length_rest_advance]
  · exact Nat.le_refl _

theorem length_rest_readString_le (scan : Scan) :
    scan.readString.2.rest.length ≤ scan.rest.length :=
  Nat.le_trans (length_rest_accept_le _ _) (length_rest_forward_le _ _)

theorem length_rest_forwardNumber_le (scan : Scan) :
    scan.forwardNumber.rest.length ≤ scan.rest.length := by
  have whole : (scan.forwardWhile Text.isDigit).rest.length ≤ scan.rest.length :=
    length_rest_forward_le _ _
  unfold forwardNumber
  simp only
  split
  · refine Nat.le_trans (length_rest_forward_le _ _) ?_
    rw [length_rest_advance]
    omega
  · exact whole

theorem rest_makeNumber (scan : Scan) : scan.makeNumber.2.rest = scan.rest := by
  unfold makeNumber
  split <;> rfl

theorem length_rest_readNumber_le (scan : Scan) :
    scan.readNumber.2.rest.length ≤ scan.rest.length := by
  rw [readNumber, rest_makeNumber]
  exact length_rest_forwardNumber_le scan

theorem length_rest_readWord_le (scan : Scan) :
    scan.readWord.2.rest.length ≤ scan.rest.length :=
  length_rest_forward_le _ _

end Scan

end LoxSyntax
