import LoxSyntax.Binary64.Shortest
import LoxSyntax.Numeral
import LoxSyntax.Proofs.Binary64.Rounding

/-!
# What shortest decimals read as

The shortest decimal of a finite magnitude reads back as that magnitude
(`magnitude_shortestDecimal`).  Its digits are laid out with a point that stands where the
magnitude is among the powers of ten (`exists_layout`), so that a magnitude is written without an
exponent if and only if it is neither too small nor too large.
-/

namespace LoxSyntax.Binary64

theorem eq_of_magnitude
    {left right : Binary64} (signs : left.negative = right.negative)
    (magnitudes : left.magnitude = right.magnitude) :
    left = right := by
  cases left
  cases right
  subst signs magnitudes
  rfl

theorem magnitude_ofDecimal (negative : Bool) (digits : Nat) (exponent : Int) :
    (ofDecimal negative digits exponent).magnitude =
      nearestMagnitude (digits * 10 ^ exponent.toNat) (10 ^ (-exponent).toNat) :=
  rfl

/-- Zeros behind the digits can be counted by the exponent. -/
theorem ofDecimal_mul_pow (negative : Bool) (digits zeros : Nat) (exponent : Int) :
    ofDecimal negative (digits * 10 ^ zeros) exponent =
      ofDecimal negative digits (exponent + zeros) := by
  have powers :
      zeros + exponent.toNat + (-(exponent + zeros)).toNat =
        (exponent + zeros).toNat + (-exponent).toNat := by
    omega
  have magnitudes :
      (ofDecimal negative (digits * 10 ^ zeros) exponent).magnitude =
        (ofDecimal negative digits (exponent + zeros)).magnitude := by
    rw [magnitude_ofDecimal, magnitude_ofDecimal]
    apply nearestMagnitude_congr (Nat.pow_pos (by decide)) (Nat.pow_pos (by decide))
    rw [Nat.mul_assoc, Nat.mul_assoc, Nat.mul_assoc, ← Nat.pow_add, ← Nat.pow_add, ← Nat.pow_add,
      ← Nat.add_assoc, powers]
  exact eq_of_magnitude rfl magnitudes

theorem ofDecimal_mono
    {lower upper : Nat} (le : lower ≤ upper) (exponent : Int) :
    (ofDecimal false lower exponent).magnitude ≤ (ofDecimal false upper exponent).magnitude := by
  rw [magnitude_ofDecimal, magnitude_ofDecimal]
  exact nearestMagnitude_mono (Nat.pow_pos (by decide)) (Nat.mul_le_mul_right _ le)

theorem ofDecimal_zero (negative : Bool) (exponent : Int) :
    ofDecimal negative 0 exponent = zero negative := by
  have magnitude : (ofDecimal negative 0 exponent).magnitude = 0 := by
    rw [magnitude_ofDecimal, Nat.zero_mul]
    refine nearestMagnitude_of_units (Nat.zero_le _) (Nat.pow_pos (by decide)) ?_
    generalize Nat.pow 2 1074 = steps
    rw [units_of_lt (by decide), Nat.zero_mul, Nat.zero_mul]
  exact eq_of_magnitude rfl magnitude

/-- The magnitude nearest to a power of ten. -/
def powerMagnitude (exponent : Int) : Nat :=
  (ofDecimal false 1 exponent).magnitude

theorem powerMagnitude_mono {lower upper : Int} (le : lower ≤ upper) :
    powerMagnitude lower ≤ powerMagnitude upper := by
  obtain ⟨zeros, rfl⟩ := Int.le.dest le
  rw [powerMagnitude, powerMagnitude, ← ofDecimal_mul_pow, Nat.one_mul]
  exact ofDecimal_mono (Nat.pow_pos (by decide)) lower

/-- The place of a decimal among the powers of ten. -/
theorem powerMagnitude_bounds
    {number : Nat} (notZero : number ≠ 0) (exponent : Int) :
    let point := (Nat.toDigits 10 number).length + exponent
    powerMagnitude (point - 1) ≤ (ofDecimal false number exponent).magnitude ∧
      (ofDecimal false number exponent).magnitude ≤ powerMagnitude point := by
  intro point
  have positive : 0 < (Nat.toDigits 10 number).length := Nat.length_toDigits_pos
  have below : number < 10 ^ (Nat.toDigits 10 number).length :=
    (Nat.length_toDigits_le_iff (by decide) positive).1 (Nat.le_refl _)
  have above : 10 ^ ((Nat.toDigits 10 number).length - 1) ≤ number := by
    by_cases single : (Nat.toDigits 10 number).length = 1
    · rw [single]
      exact Nat.pos_of_ne_zero notZero
    · apply Nat.le_of_not_lt
      intro short
      have length := (Nat.length_toDigits_le_iff (by decide) (by omega)).2 short
      omega
  have lowerPower : point - 1 = exponent + ((Nat.toDigits 10 number).length - 1 : Nat) := by
    omega
  have upperPower : point = exponent + (Nat.toDigits 10 number).length := by
    omega
  refine ⟨?_, ?_⟩
  · rw [powerMagnitude, lowerPower, ← ofDecimal_mul_pow, Nat.one_mul]
    exact ofDecimal_mono above exponent
  · rw [powerMagnitude, upperPower, ← ofDecimal_mul_pow, Nat.one_mul]
    exact ofDecimal_mono (Nat.le_of_lt below) exponent

theorem roundHalfEven_eq (numerator denominator : Nat) :
    roundHalfEven numerator denominator = numerator / denominator ∨
      roundHalfEven numerator denominator = numerator / denominator + 1 := by
  simp only [roundHalfEven]
  split
  · exact Or.inl rfl
  · exact Or.inr rfl

theorem readsBack_iff (magnitude digits : Nat) (exponent : Int) :
    readsBack magnitude digits exponent ↔
      (ofDecimal false digits exponent).magnitude = magnitude := by
  rw [readsBack, decide_eq_true_iff]

/-- A neighbour that is chosen reads back. -/
theorem of_chooseNeighbour?
    (reads : Nat → Bool) {nearer lower upper digits : Nat}
    (isNeighbour : nearer = lower ∨ nearer = upper)
    (chosen : chooseNeighbour? (reads lower) (reads upper) nearer lower upper = some digits) :
    reads digits := by
  cases lowerReads : reads lower <;> cases upperReads : reads upper <;>
    rw [lowerReads, upperReads] at chosen
  · contradiction
  · obtain rfl := Option.some.inj chosen
    exact upperReads
  · obtain rfl := Option.some.inj chosen
    exact lowerReads
  · obtain rfl := Option.some.inj chosen
    rcases isNeighbour with rfl | rfl
    · exact lowerReads
    · exact upperReads

theorem readsBack_of_nearestOnGrid?
    {magnitude digits : Nat} {exponent : Int}
    (found : nearestOnGrid? magnitude exponent = some digits) :
    readsBack magnitude digits exponent := by
  unfold nearestOnGrid? at found
  exact of_chooseNeighbour? (fun digits => readsBack magnitude digits exponent)
    (roundHalfEven_eq _ _) found

/-- All digits of a number are enough to read it back. -/
theorem magnitude_allDigits {magnitude : Nat} (finite : magnitude ≤ infiniteMagnitude) :
    (ofDecimal false (units magnitude * Nat.pow 5 1074) (-1074)).magnitude = magnitude := by
  have powers (places : Nat) :
      units magnitude * Nat.pow 5 places * Nat.pow 2 places = units magnitude * 10 ^ places :=
    (Nat.mul_assoc _ _ _).trans (congrArg (units magnitude * ·) (Nat.mul_pow 5 2 places).symm)
  have noZeros (digits : Nat) : digits * 10 ^ (-1074 : Int).toNat = digits := Nat.mul_one digits
  have shift : (-(-1074 : Int)).toNat = 1074 := rfl
  have positive (places : Nat) : 0 < 10 ^ places := Nat.pow_pos (by decide)
  rw [magnitude_ofDecimal, noZeros, shift]
  exact nearestMagnitude_of_units finite (positive 1074) (powers 1074)

/-- The shortest decimal of a finite magnitude reads back. -/
theorem magnitude_shortestDecimal
    {magnitude digits : Nat} {exponent : Int} (finite : magnitude ≤ infiniteMagnitude)
    (isShortest : shortestDecimal magnitude = (digits, exponent)) :
    (ofDecimal false digits exponent).magnitude = magnitude := by
  simp only [shortestDecimal] at isShortest
  rw [Option.getD_eq_iff] at isShortest
  rcases isShortest with found | ⟨_, isLast⟩
  · obtain ⟨count, _, onGrid⟩ := List.exists_of_findSome?_eq_some found
    obtain ⟨nearest, isNearest, equality⟩ := Option.map_eq_some_iff.1 onGrid
    obtain ⟨rfl, rfl⟩ := Prod.mk.inj equality
    exact (readsBack_iff _ _ _).1 (readsBack_of_nearestOnGrid? isNearest)
  · obtain ⟨rfl, rfl⟩ := Prod.mk.inj isLast
    exact magnitude_allDigits finite

/-- A text without the zeros at its end. -/
def dropZeros (digits : List Char) : List Char :=
  (digits.reverse.dropWhile (· = '0')).reverse

theorem exists_dropZeros_append (digits : List Char) :
    ∃ zeros, digits = dropZeros digits ++ List.replicate zeros '0' := by
  have split := List.takeWhile_append_dropWhile (p := (· = '0')) (l := digits.reverse)
  have areZeros :
      digits.reverse.takeWhile (· = '0') =
        List.replicate (digits.reverse.takeWhile (· = '0')).length '0' := by
    apply List.eq_replicate_of_mem
    intro zero member
    simpa using List.all_eq_true.1 List.all_takeWhile zero member
  refine ⟨(digits.reverse.takeWhile (· = '0')).length, ?_⟩
  rw [dropZeros, ← List.reverse_inj, List.reverse_append, List.reverse_reverse,
    List.reverse_replicate, ← areZeros, split]

/-- `Layout magnitude digits point` when a magnitude is written with the given digits, of which
`point` stand in front of the decimal point. -/
structure Layout (magnitude : Nat) (digits : List Char) (point : Int) : Prop where
  areDigits : ∀ digit ∈ digits, digit.isDigit
  notZero : Numeral.digitsValue digits ≠ 0
  reads :
    (ofDecimal false (Numeral.digitsValue digits) (point - digits.length)).magnitude = magnitude
  above : powerMagnitude (point - 1) ≤ magnitude
  below : magnitude ≤ powerMagnitude point
  text_eq :
    magnitudeText magnitude =
      if -4 < point ∧ point ≤ 16 then positionalText digits point
      else scientificText digits (point - 1)

theorem magnitudeText_eq
    {magnitude number : Nat} {exponent : Int} (notZero : magnitude ≠ 0)
    (isShortest : shortestDecimal magnitude = (number, exponent)) :
    let digits := Nat.toDigits 10 number
    let point := (digits.length : Int) + exponent
    magnitudeText magnitude =
      if -4 < point ∧ point ≤ 16 then positionalText (dropZeros digits) point
      else scientificText (dropZeros digits) (point - 1) := by
  rw [magnitudeText, if_neg notZero, isShortest]
  rfl

/-- A finite magnitude other than zero has a layout. -/
theorem exists_layout
    {magnitude : Nat} (finite : magnitude ≤ infiniteMagnitude) (notZero : magnitude ≠ 0) :
    ∃ digits point, Layout magnitude digits point := by
  rcases isShortest : shortestDecimal magnitude with ⟨number, exponent⟩
  have reads := magnitude_shortestDecimal finite isShortest
  have numberNotZero : number ≠ 0 := by
    rintro rfl
    rw [ofDecimal_zero] at reads
    exact notZero reads.symm
  obtain ⟨above, below⟩ := powerMagnitude_bounds numberNotZero exponent
  rw [reads] at above below
  obtain ⟨zeros, split⟩ := exists_dropZeros_append (Nat.toDigits 10 number)
  have value : number = Numeral.digitsValue (dropZeros (Nat.toDigits 10 number)) * 10 ^ zeros := by
    have whole := Nat.ofDigitChars_toDigits (n := number) (by decide : 1 < 10) (Nat.le_refl 10)
    rw [split, Nat.ofDigitChars_append, Nat.ofDigitChars_replicate_zero] at whole
    rw [Nat.mul_comm]
    exact whole.symm
  have length :
      (Nat.toDigits 10 number).length = (dropZeros (Nat.toDigits 10 number)).length + zeros := by
    have lengths := congrArg List.length split
    rw [List.length_append, List.length_replicate] at lengths
    exact lengths
  refine ⟨dropZeros (Nat.toDigits 10 number), (Nat.toDigits 10 number).length + exponent,
    ?_, ?_, ?_, above, below, ?_⟩
  · intro digit member
    refine Nat.isDigit_of_mem_toDigits (by decide) (Nat.le_refl 10) (n := number) ?_
    rw [split]
    exact List.mem_append_left _ member
  · intro isZero
    rw [isZero, Nat.zero_mul] at value
    exact numberNotZero value
  · have places :
        ((Nat.toDigits 10 number).length : Int) + exponent -
            (dropZeros (Nat.toDigits 10 number)).length =
          exponent + zeros := by
      omega
    rw [places, ← ofDecimal_mul_pow, ← value, reads]
  · exact magnitudeText_eq notZero isShortest

end LoxSyntax.Binary64
