import LoxSyntax.Binary64.Basic

/-!
# Shortest decimals

A finite number is written with the fewest significant digits that read back as the same
number, and among those with the digits nearest to it.  On the grid of decimals with a given
count of digits it is enough to look at the two neighbours of the number.

`Binary64.shortestText` lays the digits out positionally for decimal exponents from −4 to 15
and with an explicit exponent otherwise.
-/

namespace LoxSyntax.Binary64

/-- The numerator of the absolute value of a finite magnitude over `2 ^ 1074 * 10 ^ exponent`. -/
def gridNumerator (magnitude : Nat) (exponent : Int) : Nat :=
  units magnitude * Nat.pow 10 (-exponent).toNat

def gridDenominator (exponent : Int) : Nat :=
  Nat.pow 2 1074 * Nat.pow 10 exponent.toNat

/-- The position of the decimal point before the first significant digit: the number of digits
of the whole part, or minus the number of zeros that follow the point. -/
def decimalPoint (magnitude : Nat) : Int :=
  let whole := gridNumerator magnitude (-350) / gridDenominator (-350)
  (Nat.toDigits 10 whole).length - 350

/-- Whether a decimal reads back as the given magnitude. -/
def readsBack (magnitude digits : Nat) (exponent : Int) : Bool :=
  (ofDecimal false digits exponent).magnitude = magnitude

/-- The neighbour that reads back, or the nearer one if both of them do. -/
def chooseNeighbour? (lowerReads upperReads : Bool) (nearer lower upper : Nat) : Option Nat :=
  match lowerReads, upperReads with
  | true, true => some nearer
  | true, false => some lower
  | false, true => some upper
  | false, false => none

/-- The multiple of `10 ^ exponent` nearest to the number among its two neighbours that read
back, the even one if both are equally near. -/
def nearestOnGrid? (magnitude : Nat) (exponent : Int) : Option Nat :=
  let numerator := gridNumerator magnitude exponent
  let denominator := gridDenominator exponent
  let lower := numerator / denominator
  chooseNeighbour? (readsBack magnitude lower exponent) (readsBack magnitude (lower + 1) exponent)
    (roundHalfEven numerator denominator) lower (lower + 1)

/-- The digits of the shortest decimal that reads back, with the exponent of the last digit.
Seventeen digits are always enough. -/
def shortestDecimal (magnitude : Nat) : Nat × Int :=
  let point := decimalPoint magnitude
  let found := (List.range 17).findSome? fun (count : Nat) =>
    let exponent : Int := point - (count + 1)
    (nearestOnGrid? magnitude exponent).map fun digits => (digits, exponent)
  found.getD (units magnitude * Nat.pow 5 1074, -1074)

/-- The exponent part: a sign and at least two digits. -/
def exponentText (exponent : Int) : List Char :=
  let digits := Nat.toDigits 10 exponent.natAbs
  'e' :: (if exponent < 0 then '-' else '+') ::
    (List.replicate (2 - digits.length) '0' ++ digits)

/-- Digits with a point after the first `point` of them, filled up with zeros so that a digit
stands on both sides of the point. -/
def positionalText (digits : List Char) (point : Int) : List Char :=
  if point ≤ 0 then '0' :: '.' :: (List.replicate (-point).toNat '0' ++ digits)
  else
    let whole := digits.take point.toNat
    let fraction := digits.drop point.toNat
    whole ++ List.replicate (point.toNat - digits.length) '0' ++ '.' ::
      (if fraction.isEmpty then ['0'] else fraction)

/-- One digit, a point and the other digits if there are any, and the exponent. -/
def scientificText (digits : List Char) (exponent : Int) : List Char :=
  digits.take 1 ++ (if digits.length ≤ 1 then [] else '.' :: digits.drop 1) ++
    exponentText exponent

/-- The written form of a finite magnitude.  Decimal exponents from −4 to 15 are written
positionally. -/
def magnitudeText (magnitude : Nat) : List Char :=
  if magnitude = 0 then ['0', '.', '0']
  else
    let (number, exponent) := shortestDecimal magnitude
    let allDigits := Nat.toDigits 10 number
    let point := (allDigits.length : Int) + exponent
    let digits := (allDigits.reverse.dropWhile (· = '0')).reverse
    if -4 < point ∧ point ≤ 16 then positionalText digits point
    else scientificText digits (point - 1)

/-- The written form of a number by its shortest decimal. -/
def shortestText (number : Binary64) : List Char :=
  if number.isUndefined then ['n', 'a', 'n']
  else
    (if number.negative then ['-'] else []) ++
      (if number.isFinite then magnitudeText number.magnitude else ['i', 'n', 'f'])

/-- The whole number that a finite number is equal to, if there is one. -/
def toInt? (number : Binary64) : Option Int :=
  if number.isFinite ∧ units number.magnitude % Nat.pow 2 1074 = 0 then
    let whole : Int := units number.magnitude / Nat.pow 2 1074
    some (if number.negative then -whole else whole)
  else none

end LoxSyntax.Binary64
