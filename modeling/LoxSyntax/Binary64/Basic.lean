/-!
# Binary numbers of 64 bits

A number is a sign and 63 further bits, read as one natural number, its *magnitude*.
Magnitudes are ordered as the absolute values they stand for: the finite ones come first,
then infinity, then the values that are not numbers.

* `units` is the absolute value in steps of `2 ^ -1074`, the smallest positive number.
* `ofRatio` rounds a quotient to the nearest number, a half to the even neighbour.
-/

namespace LoxSyntax

structure Binary64 where
  negative : Bool
  magnitude : Nat
  magnitude_lt : magnitude < Nat.pow 2 63
deriving DecidableEq

namespace Binary64

/-- The number whose 64 bits, read as a natural number, are the given ones. -/
def ofBits (bits : Nat) : Binary64 where
  negative := bits / Nat.pow 2 63 % 2 = 1
  magnitude := bits % Nat.pow 2 63
  magnitude_lt := Nat.mod_lt _ (by decide)

/-- The 64 bits of a number, read as a natural number. -/
def toBits (number : Binary64) : Nat :=
  (if number.negative then Nat.pow 2 63 else 0) + number.magnitude

theorem toBits_lt (number : Binary64) : number.toBits < Nat.pow 2 64 := by
  have bound := number.magnitude_lt
  unfold toBits
  simp only [Nat.pow_eq] at bound ⊢
  split <;> omega

theorem ofBits_toBits (number : Binary64) : ofBits number.toBits = number := by
  obtain ⟨negative, magnitude, magnitude_lt⟩ := number
  have bound := magnitude_lt
  rw [Nat.pow_eq] at bound
  cases negative <;> simp [ofBits, toBits] <;> omega

def infiniteMagnitude : Nat := 2047 * Nat.pow 2 52

/-- Whether a number is neither infinite nor undefined. -/
def isFinite (number : Binary64) : Bool :=
  number.magnitude < infiniteMagnitude

/-- Whether a value is not a number. -/
def isUndefined (number : Binary64) : Bool :=
  infiniteMagnitude < number.magnitude

/-- The absolute value of a finite magnitude in steps of `2 ^ -1074`.  The upper bits give the
exponent; unless they are zero, the significand has a leading bit that is not stored. -/
def units (magnitude : Nat) : Nat :=
  if magnitude < Nat.pow 2 52 then magnitude
  else (Nat.pow 2 52 + magnitude % Nat.pow 2 52) * Nat.pow 2 (magnitude / Nat.pow 2 52 - 1)

def infinite (negative : Bool) : Binary64 :=
  ⟨negative, infiniteMagnitude, by decide⟩

/-- The value that is not a number, with a sign. -/
def undefined (negative : Bool) : Binary64 :=
  ⟨negative, infiniteMagnitude + Nat.pow 2 51, by decide⟩

def zero (negative : Bool) : Binary64 :=
  ⟨negative, 0, by decide⟩

/-- The quotient rounded to the nearest natural number, a half to the even one. -/
def roundHalfEven (numerator denominator : Nat) : Nat :=
  let quotient := numerator / denominator
  let twice := 2 * (numerator % denominator)
  if twice < denominator ∨ (twice = denominator ∧ quotient % 2 = 0) then quotient
  else quotient + 1

/-- The magnitude nearest to a quotient.  With `52 + shift` the position of its leading bit in
steps of `2 ^ -1074`, all significands keep 53 bits; those of the smallest numbers have fewer.
What exceeds the largest finite number is infinite. -/
def nearestMagnitude (numerator denominator : Nat) : Nat :=
  let scaled := numerator * Nat.pow 2 1074
  let shift := (scaled / denominator).log2 - 52
  let significand := roundHalfEven scaled (denominator * Nat.pow 2 shift)
  min (shift * Nat.pow 2 52 + significand) infiniteMagnitude

/-- The number nearest to a quotient, with the given sign. -/
def ofRatio (negative : Bool) (numerator denominator : Nat) : Binary64 where
  negative := negative
  magnitude := nearestMagnitude numerator denominator
  magnitude_lt :=
    Nat.lt_of_le_of_lt (Nat.min_le_right _ _) (by decide)

/-- The number nearest to `digits * 10 ^ exponent`, with the given sign. -/
def ofDecimal (negative : Bool) (digits : Nat) (exponent : Int) : Binary64 :=
  ofRatio negative (digits * Nat.pow 10 exponent.toNat) (Nat.pow 10 (-exponent).toNat)

end Binary64

end LoxSyntax
