import LoxSyntax.Binary64.Basic
import LoxSyntax.Text.Blank
import LoxSyntax.Text.Digit

/-!
# Numerals

A numeral is a sign, digits with an optional fraction and an optional exponent; or a sign and
one of the words `inf`, `infinity` and `nan` in any case.  Blanks may stand at both ends, and
a single underscore between two digits.  The decimal digits of every script count alike.

`Numeral.parse?` reads exactly these texts, and `Numeral.toBinary64` rounds what was read to
the nearest number.
-/

namespace LoxSyntax

/-- What the text of a number says. -/
inductive Numeral where
  /-- The number `digits * 10 ^ exponent`; the text showed `count` digits. -/
  | decimal (negative : Bool) (digits count : Nat) (exponent : Int)
  | infinite (negative : Bool)
  | undefined (negative : Bool)
deriving DecidableEq, Repr

namespace Numeral

/-- One character in plain spelling: digits of other scripts become plain digits and other
blanks a space.  No other character above `~` occurs in a numeral. -/
def plainCharacter? (character : Char) : Option Char :=
  if character.toNat < 127 then some character
  else if Text.isBlank character then some ' '
  else (Text.decimalValue? character).map Nat.digitChar

/-- The blanks that may surround a numeral in plain spelling. -/
def isSurrounding (character : Char) : Bool :=
  character = ' ' || (9 ≤ character.toNat && character.toNat ≤ 13)

/-- A text without its surrounding blanks. -/
def strip (text : List Char) : List Char :=
  ((text.dropWhile isSurrounding).reverse.dropWhile isSurrounding).reverse

/-- A text without its underscores, each of which must stand between two digits. -/
def joinDigits? : (afterDigit : Bool) → List Char → Option (List Char)
  | _, [] => some []
  | afterDigit, character :: rest =>
      if character = '_' then
        if afterDigit && (rest.head?.any Char.isDigit) then joinDigits? false rest else none
      else (joinDigits? character.isDigit rest).map (character :: ·)

/-- A leading sign, if there is one, and what follows it. -/
def splitSign : List Char → Bool × List Char
  | '-' :: rest => (true, rest)
  | '+' :: rest => (false, rest)
  | text => (false, text)

/-- The number that a run of plain digits denotes. -/
def digitsValue (digits : List Char) : Nat :=
  digits.foldl (fun value digit => 10 * value + (digit.toNat - '0'.toNat)) 0

/-- The exponent part, empty or a letter `e` with a signed run of digits. -/
def exponent? : List Char → Option Int
  | [] => some 0
  | letter :: rest =>
      let (negative, digits) := splitSign rest
      if (letter = 'e' ∨ letter = 'E') ∧ digits ≠ [] ∧ digits.all Char.isDigit then
        some (if negative then -(digitsValue digits : Int) else digitsValue digits)
      else none

/-- The fraction after a point, empty if there is no point, and what follows it. -/
def splitFraction : List Char → List Char × List Char
  | '.' :: rest => rest.span Char.isDigit
  | text => ([], text)

def unsigned? (negative : Bool) (text : List Char) : Option Numeral :=
  let word := String.ofList (text.map Char.toLower)
  if word = "inf" ∨ word = "infinity" then some (.infinite negative)
  else if word = "nan" then some (.undefined negative)
  else
    let (whole, afterWhole) := text.span Char.isDigit
    let (fraction, afterFraction) := splitFraction afterWhole
    let digits := whole ++ fraction
    if digits = [] then none
    else (exponent? afterFraction).map fun exponent =>
      .decimal negative (digitsValue digits) digits.length (exponent - fraction.length)

def parse? (text : List Char) : Option Numeral := do
  let plain ← text.mapM plainCharacter?
  let joined ← joinDigits? false (strip plain)
  let (negative, rest) := splitSign joined
  unsigned? negative rest

/-- The number nearest to a numeral.  A decimal of `count` digits is below
`10 ^ (count + exponent)`, so exponents far outside the range of finite numbers are settled
without computing the power. -/
def toBinary64 : Numeral → Binary64
  | .decimal negative digits count exponent =>
      if digits = 0 ∨ count + exponent < -400 then .zero negative
      else if 400 < exponent then .infinite negative
      else .ofDecimal negative digits exponent
  | .infinite negative => .infinite negative
  | .undefined negative => .undefined negative

end Numeral

/-- The number that a text denotes, if it is a numeral. -/
def Binary64.ofText? (text : List Char) : Option Binary64 :=
  (Numeral.parse? text).map Numeral.toBinary64

end LoxSyntax
