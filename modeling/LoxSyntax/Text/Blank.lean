/-!
# Blanks and lines

A set of characters is a list of closed ranges of code points in increasing order.  Blanks
separate tokens and are trimmed from both ends of a line: they are the characters of
bidirectional class WS, B or S, or of general category Zs.

Text from outside may end its lines with a line feed, a carriage return, or both in this
order.  Inside the library a line ends with a line feed alone.
-/

namespace LoxSyntax.Text

/-- Whether a code point lies in one of the ranges, which are in increasing order. -/
def inRanges : List (Nat × Nat) → Nat → Bool
  | [], _ => false
  | (first, last) :: ranges, code =>
      first ≤ code && (code ≤ last || inRanges ranges code)

def blankRanges : List (Nat × Nat) :=
  [(0x9, 0xD), (0x1C, 0x20), (0x85, 0x85), (0xA0, 0xA0), (0x1680, 0x1680), (0x2000, 0x200A),
    (0x2028, 0x2029), (0x202F, 0x202F), (0x205F, 0x205F), (0x3000, 0x3000)]

def isBlank (character : Char) : Bool :=
  inRanges blankRanges character.toNat

/-- Every line end as a line feed. -/
def unifyLineEnds : List Char → List Char
  | [] => []
  | '\r' :: '\n' :: rest => '\n' :: unifyLineEnds rest
  | character :: rest =>
      (if character = '\r' then '\n' else character) :: unifyLineEnds rest

/-- The lines of a text without their line feeds.  A last line that lacks its line feed
counts if it is not empty. -/
def lines : List Char → List (List Char)
  | [] => []
  | character :: rest =>
      if character = '\n' then [] :: lines rest
      else match lines rest with
        | [] => [[character]]
        | line :: others => (character :: line) :: others

/-- A text without the blanks at its two ends. -/
def trimBlanks (text : List Char) : List Char :=
  ((text.dropWhile isBlank).reverse.dropWhile isBlank).reverse

end LoxSyntax.Text
