import LoxSyntax.Text.Printable

/-!
# Quoted text

A text is shown between quotes so that it fits on one line and can be read back: the quote in
use, the backslash, line ends, tabs and unprintable characters are escaped.
-/

namespace LoxSyntax.Text

/-- The last `width` hexadecimal digits of a number, in lower case. -/
def lowerHex : Nat → Nat → List Char
  | 0, _ => []
  | width + 1, number =>
      lowerHex width (number / 16) ++ [Nat.digitChar (number % 16)]

/-- Single quotes, unless the text holds a single quote and no double one. -/
def preferredQuote (text : List Char) : Char :=
  if '\'' ∈ text ∧ '"' ∉ text then '"' else '\''

/-- The written form of one character between the given quotes. -/
def escaped (quote character : Char) : List Char :=
  if character = '\\' ∨ character = quote then ['\\', character]
  else if character = '\n' then ['\\', 'n']
  else if character = '\r' then ['\\', 'r']
  else if character = '\t' then ['\\', 't']
  else if isPrintable character then [character]
  else if character.toNat < 0x100 then '\\' :: 'x' :: lowerHex 2 character.toNat
  else if character.toNat < 0x10000 then '\\' :: 'u' :: lowerHex 4 character.toNat
  else '\\' :: 'U' :: lowerHex 8 character.toNat

/-- A text between quotes, with the characters that need it escaped. -/
def quoted (text : String) : String :=
  let quote := preferredQuote text.toList
  String.ofList (quote :: (text.toList.flatMap (escaped quote) ++ [quote]))

end LoxSyntax.Text
