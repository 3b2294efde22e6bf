import LoxSyntax.Proofs.Binary64.ShortestDecimals
import LoxSyntax.Proofs.Numerals
import LoxSyntax.Value

/-!
# Written numbers as numerals

A finite number without a sign is written as a numeral that denotes it
(`Binary64.denotes_writtenNumber`), unless it is so small that it is written with an exponent
(`Binary64.exists_scientificText`).
-/

namespace LoxSyntax

namespace Numeral

theorem plainCharacter?_of_plain
    {character : Char} (plain : character.isDigit ∨ character = '.') :
    plainCharacter? character = some character := by
  rcases plain with isDigit | rfl
  · obtain ⟨small, same⟩ := digitChar_toNat_sub isDigit
    have each :
        ∀ value < 10, plainCharacter? (Nat.digitChar value) = some (Nat.digitChar value) := by
      decide
    rw [← same]
    exact each _ small
  · decide

theorem parse?_of_plain
    {text : List Char} (plain : ∀ character ∈ text, character.isDigit ∨ character = '.') :
    parse? text = ofPlain? text := by
  have spelled : text.mapM plainCharacter? = some text := by
    induction text with
    | nil => rfl
    | cons first rest ih =>
        obtain ⟨firstPlain, restPlain⟩ := List.forall_mem_cons.1 plain
        rw [List.mapM_cons, plainCharacter?_of_plain firstPlain, ih restPlain]
        rfl
  rw [parse?_eq_bind, spelled, Option.bind_some]

/-- Unless its exponent is out of all bounds, a numeral denotes the number nearest to it. -/
theorem toBinary64_decimal
    {digits count : Nat} {exponent : Int}
    (notTiny : -400 ≤ count + exponent) (notHuge : exponent ≤ 400) :
    (decimal false digits count exponent).toBinary64 = .ofDecimal false digits exponent := by
  by_cases isZero : digits = 0
  · rw [toBinary64, if_pos (Or.inl isZero), isZero, Binary64.ofDecimal_zero]
  · have inside : ¬ (digits = 0 ∨ (count : Int) + exponent < -400) := by omega
    rw [toBinary64, if_neg inside, if_neg (Int.not_lt.2 notHuge)]

end Numeral

namespace Text

theorem isDigit_of_plain {character : Char} (isDigit : character.isDigit) :
    Text.isDigit character := by
  obtain ⟨small, same⟩ := digitChar_toNat_sub isDigit
  have each : ∀ value < 10, Text.isDigit (Nat.digitChar value) := by decide +kernel
  rw [← same]
  exact each _ small

end Text

/-- A text that is the lexeme of a number, and the number that it denotes. -/
structure Denotes (text : List Char) (number : Binary64) : Prop where
  isLexeme : Lexeme .number text
  denotes : Binary64.ofText? text = some number

theorem denotes_whole
    {digits : List Char} (areDigits : ∀ digit ∈ digits, digit.isDigit) (notNil : digits ≠ []) :
    Denotes digits (.ofDecimal false (Numeral.digitsValue digits) 0) := by
  cases digits with
  | nil => exact absurd rfl notNil
  | cons first others =>
      obtain ⟨firstIsDigit, othersAreDigits⟩ := List.forall_mem_cons.1 areDigits
      refine ⟨.whole (Text.isDigit_of_plain firstIsDigit) fun digit member =>
        Text.isDigit_of_plain (othersAreDigits digit member), ?_⟩
      rw [Binary64.ofText?,
        Numeral.parse?_of_plain fun digit member => Or.inl (areDigits digit member),
        Numeral.ofPlain?_whole areDigits, Option.map_some,
        Numeral.toBinary64_decimal (by omega) (by decide)]

theorem denotes_fraction
    {whole decimals : List Char} (areDigits : ∀ digit ∈ whole, digit.isDigit)
    (areDecimals : ∀ digit ∈ decimals, digit.isDigit) (notNil : whole ≠ []) :
    Denotes (whole ++ '.' :: decimals)
      (.ofDecimal false (Numeral.digitsValue (whole ++ decimals)) (-decimals.length)) := by
  cases whole with
  | nil => exact absurd rfl notNil
  | cons first others =>
      obtain ⟨firstIsDigit, othersAreDigits⟩ := List.forall_mem_cons.1 areDigits
      have plain :
          ∀ character ∈ (first :: others) ++ '.' :: decimals,
            character.isDigit ∨ character = '.' := by
        intro character member
        rcases List.mem_append.1 member with inWhole | behind
        · exact Or.inl (areDigits character inWhole)
        · rcases List.mem_cons.1 behind with isPoint | inDecimals
          · exact Or.inr isPoint
          · exact Or.inl (areDecimals character inDecimals)
      have read :
          Numeral.parse? ((first :: others) ++ '.' :: decimals) =
            some (.decimal false (Numeral.digitsValue ((first :: others) ++ decimals))
              (first :: (others ++ decimals)).length (-decimals.length)) :=
        (Numeral.parse?_of_plain plain).trans (Numeral.ofPlain?_fraction areDigits areDecimals)
      refine ⟨.fraction (Text.isDigit_of_plain firstIsDigit)
        (fun digit member => Text.isDigit_of_plain (othersAreDigits digit member))
        fun digit member => Text.isDigit_of_plain (areDecimals digit member), ?_⟩
      have length :
          ((first :: (others ++ decimals)).length : Int) =
            others.length + decimals.length + 1 := by
        simp
      rw [Binary64.ofText?, read, Option.map_some,
        Numeral.toBinary64_decimal (by omega) (by omega)]

namespace Numeral

theorem digitsValue_append_zeros (digits : List Char) (zeros : Nat) :
    digitsValue (digits ++ List.replicate zeros '0') = digitsValue digits * 10 ^ zeros := by
  have value :
      Nat.ofDigitChars 10 (digits ++ List.replicate zeros '0') 0 =
        10 ^ zeros * Nat.ofDigitChars 10 digits 0 := by
    rw [Nat.ofDigitChars_append, Nat.ofDigitChars_replicate_zero]
  rw [Nat.mul_comm]
  exact value

theorem digitsValue_zeros_append (zeros : Nat) (digits : List Char) :
    digitsValue (List.replicate zeros '0' ++ digits) = digitsValue digits := by
  have value :
      Nat.ofDigitChars 10 (List.replicate zeros '0' ++ digits) 0 =
        Nat.ofDigitChars 10 digits 0 := by
    rw [Nat.ofDigitChars_append, Nat.ofDigitChars_replicate_zero, Nat.mul_zero]
  exact value

end Numeral

namespace Binary64

/-- Digits that are laid out around a point denote what they do with an exponent. -/
theorem denotes_positionalText
    {digits : List Char} (areDigits : ∀ digit ∈ digits, digit.isDigit) (notNil : digits ≠ [])
    (point : Int) :
    Denotes (positionalText digits point)
      (.ofDecimal false (Numeral.digitsValue digits) (point - digits.length)) := by
  have areZeros (count : Nat) : ∀ digit ∈ List.replicate count '0', digit.isDigit := by
    intro digit member
    rw [List.eq_of_mem_replicate member]
    decide
  by_cases inFront : point ≤ 0
  · have denotes :=
      denotes_fraction (areZeros 1)
        (List.forall_mem_append.2 ⟨areZeros (-point).toNat, areDigits⟩) (List.cons_ne_nil _ _)
    rw [← List.append_assoc, List.replicate_append_replicate, Numeral.digitsValue_zeros_append]
      at denotes
    have places :
        -((List.replicate (-point).toNat '0' ++ digits).length : Int) =
          point - digits.length := by
      rw [List.length_append, List.length_replicate]
      omega
    rw [places] at denotes
    rw [positionalText, if_pos inFront]
    exact denotes
  · rw [positionalText, if_neg inFront]
    by_cases isWhole : digits.length ≤ point.toNat
    · have value :
          Numeral.digitsValue
              (digits ++ List.replicate (point.toNat - digits.length) '0' ++ ['0']) =
            Numeral.digitsValue digits * 10 ^ (point.toNat - digits.length + 1) := by
        rw [List.append_assoc, ← List.replicate_succ', Numeral.digitsValue_append_zeros]
      have places :
          -(['0'].length : Int) + (point.toNat - digits.length + 1 : Nat) =
            point - digits.length := by
        rw [List.length_singleton]
        omega
      have denotes :=
        denotes_fraction
          (List.forall_mem_append.2 ⟨areDigits, areZeros (point.toNat - digits.length)⟩)
          (areZeros 1) (List.append_ne_nil_of_left_ne_nil notNil _)
      rw [List.replicate_one, value, ofDecimal_mul_pow, places] at denotes
      simp only [List.take_of_length_le isWhole, List.drop_eq_nil_of_le isWhole]
      exact denotes
    · have noZeros : point.toNat - digits.length = 0 := by omega
      have behind : (digits.drop point.toNat).isEmpty = false := by
        rw [List.isEmpty_eq_false_iff, Ne, List.drop_eq_nil_iff]
        exact isWhole
      have places : -((digits.drop point.toNat).length : Int) = point - digits.length := by
        rw [List.length_drop]
        omega
      have wholeNotNil : digits.take point.toNat ≠ [] := by
        rw [Ne, List.take_eq_nil_iff, not_or]
        exact ⟨by omega, notNil⟩
      have areWhole : ∀ digit ∈ digits.take point.toNat, digit.isDigit :=
        fun digit member => areDigits digit (List.mem_of_mem_take member)
      have areDecimals : ∀ digit ∈ digits.drop point.toNat, digit.isDigit :=
        fun digit member => areDigits digit (List.mem_of_mem_drop member)
      have denotes := denotes_fraction areWhole areDecimals wholeNotNil
      rw [List.take_append_drop, places] at denotes
      simp only [noZeros, behind, List.replicate_zero, List.append_nil, Bool.false_eq_true,
        if_false]
      exact denotes

/-! ## Whole numbers -/

theorem toInt?_eq {number : Binary64} (notNegative : number.negative = false) :
    number.toInt? =
      if number.isFinite ∧ units number.magnitude % Nat.pow 2 1074 = 0 then
        some ((units number.magnitude / Nat.pow 2 1074 : Nat) : Int)
      else none := by
  unfold toInt?
  rw [notNegative]
  rfl

theorem lt_infiniteMagnitude {number : Binary64} (finite : number.isFinite) :
    number.magnitude < infiniteMagnitude :=
  of_decide_eq_true finite

/-- A whole number is what its digits denote. -/
theorem eq_ofDecimal_of_whole
    {number : Binary64} (notNegative : number.negative = false) (finite : number.isFinite)
    (isWhole : units number.magnitude % Nat.pow 2 1074 = 0) :
    number = .ofDecimal false (units number.magnitude / Nat.pow 2 1074) 0 := by
  have magnitude :
      (ofDecimal false (units number.magnitude / Nat.pow 2 1074) 0).magnitude =
        number.magnitude := by
    rw [magnitude_ofDecimal]
    refine nearestMagnitude_of_units (Nat.le_of_lt (lt_infiniteMagnitude finite))
      (Nat.pow_pos (by decide)) ?_
    have noPlaces (digits : Nat) : digits * 10 ^ (0 : Int).toNat = digits := Nat.mul_one digits
    have noShift (steps : Nat) : steps * 10 ^ (-(0 : Int)).toNat = steps := Nat.mul_one steps
    rw [noPlaces, noShift, Nat.div_mul_cancel (Nat.dvd_of_mod_eq_zero isWhole)]
  exact eq_of_magnitude notNegative magnitude.symm

theorem denotes_of_whole
    {number : Binary64} (notNegative : number.negative = false) (finite : number.isFinite)
    (isWhole : units number.magnitude % Nat.pow 2 1074 = 0) :
    Denotes (Value.writtenNumber number) number := by
  have written :
      Value.writtenNumber number =
        Nat.toDigits 10 (units number.magnitude / Nat.pow 2 1074) := by
    rw [Value.writtenNumber, toInt?_eq notNegative, if_pos ⟨finite, isWhole⟩]
    rfl
  have value :
      Numeral.digitsValue (Nat.toDigits 10 (units number.magnitude / Nat.pow 2 1074)) =
        units number.magnitude / Nat.pow 2 1074 :=
    Nat.ofDigitChars_toDigits (by decide) (Nat.le_refl 10)
  have denotes :=
    denotes_whole
      (fun digit member => Nat.isDigit_of_mem_toDigits (by decide) (Nat.le_refl 10) member)
      (Nat.toDigits_ne_nil (n := units number.magnitude / Nat.pow 2 1074) (b := 10))
  rw [value, ← eq_ofDecimal_of_whole notNegative finite isWhole, ← written] at denotes
  exact denotes

theorem powerMagnitude_le_of_whole
    {number : Binary64} (notNegative : number.negative = false) (finite : number.isFinite)
    (isWhole : units number.magnitude % Nat.pow 2 1074 = 0) (notZero : number.magnitude ≠ 0) :
    powerMagnitude 0 ≤ number.magnitude := by
  have equality := eq_ofDecimal_of_whole notNegative finite isWhole
  have positive : units number.magnitude / Nat.pow 2 1074 ≠ 0 := by
    intro isZero
    rw [isZero, ofDecimal_zero] at equality
    exact notZero (congrArg magnitude equality)
  rw [equality]
  exact ofDecimal_mono (Nat.pos_of_ne_zero positive) 0

/-- A large number is whole. -/
theorem whole_of_le
    {magnitude : Nat} (large : powerMagnitude 16 ≤ magnitude) :
    units magnitude % Nat.pow 2 1074 = 0 := by
  have bound : 1075 * 2 ^ 52 ≤ powerMagnitude 16 := by decide +kernel
  rcases small_or_exists_shift magnitude with small | ⟨shift, significand, small, rfl⟩
  · omega
  · rw [units_add small]
    have divides (steps : Nat) (le : steps ≤ shift) :
        Nat.pow 2 steps ∣ (2 ^ 52 + significand) * 2 ^ shift :=
      Nat.dvd_trans (Nat.pow_dvd_pow 2 le) (Nat.dvd_mul_left _ _)
    exact Nat.mod_eq_zero_of_dvd (divides 1074 (by omega))

/-! ## Fractions -/

theorem writtenNumber_of_not_whole
    {number : Binary64} (notNegative : number.negative = false) (finite : number.isFinite)
    (notWhole : ¬ units number.magnitude % Nat.pow 2 1074 = 0) :
    Value.writtenNumber number = magnitudeText number.magnitude := by
  have noInteger : number.toInt? = none := by
    rw [toInt?_eq notNegative, if_neg fun both => notWhole both.2]
  have defined : number.isUndefined = false := by
    have below := lt_infiniteMagnitude finite
    exact decide_eq_false (Nat.not_lt_of_lt below)
  rw [Value.writtenNumber, noInteger]
  simp only [shortestText, defined, notNegative, finite, if_true, Bool.false_eq_true, if_false,
    List.nil_append]

theorem denotes_powerMagnitude :
    Denotes (magnitudeText (powerMagnitude (-4))) (.ofDecimal false 1 (-4)) := by
  have text : magnitudeText (powerMagnitude (-4)) = ['0'] ++ '.' :: ['0', '0', '0', '1'] := by
    decide +kernel
  have isWhole : ∀ digit ∈ ['0'], digit.isDigit := by simp
  have areDecimals : ∀ digit ∈ ['0', '0', '0', '1'], digit.isDigit := by simp
  have denotes := denotes_fraction isWhole areDecimals (List.cons_ne_nil _ _)
  have value : Numeral.digitsValue (['0'] ++ ['0', '0', '0', '1']) = 1 := by decide
  have places : -(['0', '0', '0', '1'].length : Int) = -4 := by decide
  rw [value, places] at denotes
  rw [text]
  exact denotes

/-- A number without a sign denotes what it is written as, if that has no exponent. -/
theorem denotes_writtenNumber
    {number : Binary64} (notNegative : number.negative = false) (finite : number.isFinite)
    (large : number.magnitude = 0 ∨ powerMagnitude (-4) ≤ number.magnitude) :
    Denotes (Value.writtenNumber number) number := by
  by_cases isWhole : units number.magnitude % Nat.pow 2 1074 = 0
  · exact denotes_of_whole notNegative finite isWhole
  · have notZero : number.magnitude ≠ 0 := by
      intro isZero
      rw [isZero, units_of_lt (by decide)] at isWhole
      exact isWhole (Nat.zero_mod _)
    have enough := large.resolve_left notZero
    rw [writtenNumber_of_not_whole notNegative finite isWhole]
    by_cases isLeast : number.magnitude = powerMagnitude (-4)
    · have equality : number = .ofDecimal false 1 (-4) := eq_of_magnitude notNegative isLeast
      rw [isLeast, equality]
      exact denotes_powerMagnitude
    · obtain ⟨digits, point, layout⟩ :=
        exists_layout (Nat.le_of_lt (lt_infiniteMagnitude finite)) notZero
      have low : -4 < point := by
        apply Int.lt_of_not_ge
        intro below
        have bound := Nat.le_trans layout.below (powerMagnitude_mono below)
        omega
      have high : point ≤ 16 := by
        apply Int.le_of_not_gt
        intro above
        apply isWhole
        apply whole_of_le
        exact Nat.le_trans (powerMagnitude_mono (by omega)) layout.above
      have notNil : digits ≠ [] := by
        rintro rfl
        exact layout.notZero rfl
      have denotes := denotes_positionalText layout.areDigits notNil point
      have equality :
          ofDecimal false (Numeral.digitsValue digits) (point - digits.length) = number :=
        eq_of_magnitude notNegative.symm layout.reads
      rw [layout.text_eq, if_pos ⟨low, high⟩]
      rw [equality] at denotes
      exact denotes

/-- A number that is too small is written with an exponent. -/
theorem exists_scientificText
    {number : Binary64} (notNegative : number.negative = false) (finite : number.isFinite)
    (notZero : number.magnitude ≠ 0) (small : number.magnitude < powerMagnitude (-4)) :
    ∃ digits exponent, Value.writtenNumber number = scientificText digits exponent ∧
      digits ≠ [] ∧ ∀ digit ∈ digits, digit.isDigit := by
  have notWhole : ¬ units number.magnitude % Nat.pow 2 1074 = 0 := by
    intro isWhole
    have least := powerMagnitude_le_of_whole notNegative finite isWhole notZero
    have further := powerMagnitude_mono (by decide : (-4 : Int) ≤ 0)
    omega
  obtain ⟨digits, point, layout⟩ :=
    exists_layout (Nat.le_of_lt (lt_infiniteMagnitude finite)) notZero
  have low : ¬ (-4 < point ∧ point ≤ 16) := by
    rintro ⟨above, _⟩
    have bound :=
      Nat.le_trans (powerMagnitude_mono (by omega : -4 ≤ point - 1)) layout.above
    omega
  refine ⟨digits, point - 1, ?_, ?_, layout.areDigits⟩
  · rw [writtenNumber_of_not_whole notNegative finite notWhole, layout.text_eq, if_neg low]
  · rintro rfl
    exact layout.notZero rfl

end Binary64

end LoxSyntax
