import Mathlib.Data.List.TakeDrop
import LoxSyntax.Proofs.Scan.Yield

/-!
# Which numbers are numerals

The lexeme of a number consists of digits and of at most one point behind the first of them.  It
is a numeral if and only if all its digits are decimal ones (`Lexeme.ofText?_eq_none_iff`): a
superscript or a circled digit has no plain spelling, and nothing else can be wrong with it.

In plain spelling such a text is read digit by digit, whether it has a fraction or not
(`Numeral.ofPlain?_whole`, `Numeral.ofPlain?_fraction`).
-/

namespace LoxSyntax

namespace Text

theorem not_isBlank_of_isDigit
    {character : Char} (isDigit : isDigit character) :
    ¬ isBlank character :=
  not_inRanges_of_apart (by decide +kernel) isDigit

theorem lt_ten_of_decimalValue?
    {character : Char} {value : Nat} (found : decimalValue? character = some value) :
    value < 10 := by
  obtain ⟨start, isStart, rfl⟩ := Option.map_eq_some_iff.1 found
  have inside := List.find?_some isStart
  simp only [Bool.and_eq_true, decide_eq_true_eq] at inside
  omega

/-- The digits among the first characters are the plain ones. -/
theorem isDigit_of_lt
    {character : Char} (isDigit : isDigit character) (low : character.toNat < 127) :
    character.isDigit := by
  simp only [Text.isDigit, digitRanges, inRanges, Bool.and_eq_true, Bool.or_eq_true,
    decide_eq_true_eq] at isDigit
  have plain : 0x30 ≤ character.toNat ∧ character.toNat ≤ 0x39 := by omega
  simpa [Char.isDigit, UInt32.le_iff_toNat_le] using plain

theorem isDecimalDigit_of_not_exists
    {text : List Char}
    (none : ¬ ∃ digit ∈ text, isDigit digit ∧ ¬ isDecimalDigit digit) :
    ∀ digit ∈ text, isDigit digit → isDecimalDigit digit := by
  intro digit member isDigit
  apply Decidable.byContradiction
  intro notDecimal
  exact none ⟨digit, member, isDigit, notDecimal⟩

theorem decimalValue?_digitChar {value : Nat} (small : value < 10) :
    decimalValue? (Nat.digitChar value) = some value := by
  have each : ∀ value < 10, decimalValue? (Nat.digitChar value) = some value := by decide
  exact each value small

end Text

theorem digitChar_toNat_sub {character : Char} (isDigit : character.isDigit) :
    character.toNat - 48 < 10 ∧ Nat.digitChar (character.toNat - 48) = character := by
  have inside : 48 ≤ character.toNat ∧ character.toNat ≤ 57 := by
    simpa [Char.isDigit, UInt32.le_iff_toNat_le] using isDigit
  have small : character.toNat - 48 < 10 := by omega
  refine ⟨small, Char.toNat_inj.1 ?_⟩
  rw [Nat.toNat_digitChar_of_lt_ten small]
  omega

theorem isDigit_digitChar {value : Nat} (small : value < 10) :
    (Nat.digitChar value).isDigit := by
  have each : ∀ value < 10, (Nat.digitChar value).isDigit := by decide
  exact each value small

theorem toLower_of_isDigit {character : Char} (isDigit : character.isDigit) :
    character.toLower = character := by
  obtain ⟨small, same⟩ := digitChar_toNat_sub isDigit
  have each : ∀ value < 10, (Nat.digitChar value).toLower = Nat.digitChar value := by decide
  rw [← same]
  exact each _ small

namespace Numeral

/-! ## Plain spelling -/

/-- A digit has the plain spelling of its value, if it has one. -/
theorem plainCharacter?_of_isDigit
    {character : Char} (isDigit : Text.isDigit character) :
    plainCharacter? character = (Text.decimalValue? character).map Nat.digitChar := by
  unfold plainCharacter?
  by_cases low : character.toNat < 127
  · obtain ⟨small, same⟩ := digitChar_toNat_sub (Text.isDigit_of_lt isDigit low)
    rw [if_pos low, ← same, Text.decimalValue?_digitChar small]
    rfl
  · rw [if_neg low, if_neg (Text.not_isBlank_of_isDigit isDigit)]

theorem plainCharacter?_eq_none_iff
    {character : Char} (isDigit : Text.isDigit character) :
    plainCharacter? character = none ↔ ¬ Text.isDecimalDigit character := by
  rw [plainCharacter?_of_isDigit isDigit, Option.map_eq_none_iff, Text.isDecimalDigit]
  simp

theorem mapM_eq_none
    {α β : Type} {test : α → Option β} {items : List α} {item : α}
    (member : item ∈ items) (fails : test item = none) :
    items.mapM test = none := by
  induction items with
  | nil => simp at member
  | cons first rest ih =>
      rw [List.mapM_cons]
      rcases List.mem_cons.1 member with rfl | later
      · rw [fails]
        rfl
      · cases test first with
        | none => rfl
        | some _ => simp [ih later]

/-- Digits that are all decimal have a plain spelling of the same length. -/
theorem exists_mapM_plainCharacter?
    {digits : List Char}
    (areDigits : ∀ digit ∈ digits, Text.isDigit digit)
    (decimal : ∀ digit ∈ digits, Text.isDecimalDigit digit) :
    ∃ plain : List Char,
      digits.mapM plainCharacter? = some plain ∧
        plain.length = digits.length ∧
        ∀ digit ∈ plain, digit.isDigit := by
  induction digits with
  | nil => exact ⟨[], rfl, rfl, by simp⟩
  | cons first rest ih =>
      obtain ⟨isDigit, laterDigits⟩ := List.forall_mem_cons.1 areDigits
      obtain ⟨isDecimal, laterDecimal⟩ := List.forall_mem_cons.1 decimal
      obtain ⟨plain, spelled, sameLength, plainDigits⟩ := ih laterDigits laterDecimal
      obtain ⟨value, hasValue⟩ := Option.isSome_iff_exists.1 isDecimal
      refine ⟨Nat.digitChar value :: plain, ?_, by simp [sameLength], ?_⟩
      · rw [List.mapM_cons, spelled, plainCharacter?_of_isDigit isDigit, hasValue]
        rfl
      · rw [List.forall_mem_cons]
        exact ⟨isDigit_digitChar (Text.lt_ten_of_decimalValue? hasValue), plainDigits⟩

/-- What a text in plain spelling says. -/
def ofPlain? (plain : List Char) : Option Numeral := do
  let joined ← joinDigits? false (strip plain)
  let (negative, rest) := splitSign joined
  unsigned? negative rest

theorem parse?_eq_bind (text : List Char) :
    parse? text = (text.mapM plainCharacter?).bind ofPlain? :=
  rfl

/-! ## Digits and a point -/

theorem not_isSurrounding_of_isDigit
    {character : Char} (isDigit : character.isDigit) :
    ¬ isSurrounding character := by
  obtain ⟨small, same⟩ := digitChar_toNat_sub isDigit
  have each : ∀ value < 10, ¬ isSurrounding (Nat.digitChar value) := by decide
  rw [← same]
  exact each _ small

theorem strip_eq_self
    {text : List Char}
    (noBlank : ∀ character ∈ text, ¬ isSurrounding character) :
    strip text = text := by
  have kept {items : List Char} (subset : ∀ character ∈ items, character ∈ text) :
      items.dropWhile isSurrounding = items := by
    cases items with
    | nil => rfl
    | cons first rest => exact List.dropWhile_cons_of_neg (noBlank first (subset first (by simp)))
  rw [strip, kept fun _ member => member, kept (by simp), List.reverse_reverse]

theorem joinDigits?_eq_some
    {text : List Char} (noUnderscore : '_' ∉ text) (afterDigit : Bool) :
    joinDigits? afterDigit text = some text := by
  induction text generalizing afterDigit with
  | nil => rfl
  | cons first rest ih =>
      rw [List.mem_cons, not_or] at noUnderscore
      rw [joinDigits?, if_neg (Ne.symm noUnderscore.1), ih noUnderscore.2]
      rfl

theorem splitSign_of_isDigit
    {first : Char} (isDigit : first.isDigit) (rest : List Char) :
    splitSign (first :: rest) = (false, first :: rest) := by
  unfold splitSign
  split
  · rename_i equality
    rw [(List.cons.inj equality).1] at isDigit
    exact absurd isDigit (by decide)
  · rename_i equality
    rw [(List.cons.inj equality).1] at isDigit
    exact absurd isDigit (by decide)
  · rfl

/-- A text that begins with a digit is none of the words for special numbers. -/
theorem unsigned?_of_isDigit
    {first : Char} (isDigit : first.isDigit) (negative : Bool) (rest : List Char) :
    unsigned? negative (first :: rest) =
      let (whole, afterWhole) := (first :: rest).span Char.isDigit
      let (fraction, afterFraction) := splitFraction afterWhole
      let digits := whole ++ fraction
      if digits = [] then none
      else (exponent? afterFraction).map fun exponent =>
        .decimal negative (digitsValue digits) digits.length (exponent - fraction.length) := by
  have different {letter : Char} (notDigit : ¬ letter.isDigit) (others : List Char) :
      String.ofList ((first :: rest).map Char.toLower) ≠ String.ofList (letter :: others) := by
    intro equality
    have heads := String.ofList_injective equality
    rw [List.map_cons, toLower_of_isDigit isDigit] at heads
    rw [(List.cons.inj heads).1] at isDigit
    exact notDigit isDigit
  have notInf : String.ofList ((first :: rest).map Char.toLower) ≠ "inf" :=
    different (by decide) ['n', 'f']
  have notInfinity : String.ofList ((first :: rest).map Char.toLower) ≠ "infinity" :=
    different (by decide) ['n', 'f', 'i', 'n', 'i', 't', 'y']
  have notNan : String.ofList ((first :: rest).map Char.toLower) ≠ "nan" :=
    different (by decide) ['a', 'n']
  rw [unsigned?, if_neg (not_or.2 ⟨notInf, notInfinity⟩), if_neg notNan]

theorem ofPlain?_of_isDigit
    {first : Char} {rest : List Char}
    (isDigit : first.isDigit)
    (plain : ∀ character ∈ first :: rest, character.isDigit ∨ character = '.') :
    ofPlain? (first :: rest) = unsigned? false (first :: rest) := by
  have apart {character : Char} (other : ¬ character.isDigit) (notPoint : character ≠ '.') :
      character ∉ first :: rest := by
    intro member
    rcases plain character member with isDigit | isPoint
    · exact other isDigit
    · exact notPoint isPoint
  have noBlank : ∀ character ∈ first :: rest, ¬ isSurrounding character := by
    intro character member surrounding
    rcases plain character member with digit | rfl
    · exact not_isSurrounding_of_isDigit digit surrounding
    · exact absurd surrounding (by decide)
  simp only [ofPlain?, strip_eq_self noBlank, joinDigits?_eq_some (apart (by decide) (by decide)),
    splitSign_of_isDigit isDigit, Option.bind_eq_bind, Option.bind_some]

/-- Digits without a point denote a whole number. -/
theorem ofPlain?_whole
    {first : Char} {digits : List Char}
    (areDigits : ∀ digit ∈ first :: digits, digit.isDigit) :
    ofPlain? (first :: digits) =
      some (.decimal false (digitsValue (first :: digits)) (first :: digits).length 0) := by
  have isDigit := areDigits first (by simp)
  rw [ofPlain?_of_isDigit isDigit fun character member => Or.inl (areDigits character member),
    unsigned?_of_isDigit isDigit, List.span_eq_takeWhile_dropWhile,
    List.takeWhile_eq_self_iff.2 areDigits, List.dropWhile_eq_nil_iff.2 areDigits]
  simp [splitFraction, exponent?]

/-- The digits behind a point count as many places. -/
theorem ofPlain?_fraction
    {first : Char} {digits decimals : List Char}
    (areDigits : ∀ digit ∈ first :: digits, digit.isDigit)
    (areDecimals : ∀ digit ∈ decimals, digit.isDigit) :
    ofPlain? (first :: (digits ++ '.' :: decimals)) =
      some
        (.decimal false (digitsValue (first :: (digits ++ decimals)))
          (first :: (digits ++ decimals)).length (-decimals.length)) := by
  have isDigit := areDigits first (by simp)
  have plain :
      ∀ character ∈ first :: (digits ++ '.' :: decimals),
        character.isDigit ∨ character = '.' := by
    intro character member
    rw [← List.cons_append, List.mem_append] at member
    rcases member with inFront | behind
    · exact Or.inl (areDigits character inFront)
    · rcases List.mem_cons.1 behind with isPoint | inDecimals
      · exact Or.inr isPoint
      · exact Or.inl (areDecimals character inDecimals)
  have whole :
      (first :: (digits ++ '.' :: decimals)).takeWhile Char.isDigit = first :: digits := by
    rw [← List.cons_append]
    exact takeWhile_append_cons areDigits (by decide)
  have behind :
      (first :: (digits ++ '.' :: decimals)).dropWhile Char.isDigit = '.' :: decimals := by
    rw [← List.cons_append, List.dropWhile_append_of_pos areDigits]
    exact List.dropWhile_cons_of_neg (by decide)
  rw [ofPlain?_of_isDigit isDigit plain, unsigned?_of_isDigit isDigit,
    List.span_eq_takeWhile_dropWhile, whole, behind]
  simp [splitFraction, List.span_eq_takeWhile_dropWhile, List.takeWhile_eq_self_iff.2 areDecimals,
    List.dropWhile_eq_nil_iff.2 areDecimals, exponent?]

end Numeral

/-- A number with a digit that has no decimal value is no numeral. -/
theorem Numeral.parse?_eq_none
    {text : List Char} {digit : Char}
    (member : digit ∈ text) (isDigit : Text.isDigit digit)
    (notDecimal : ¬ Text.isDecimalDigit digit) :
    parse? text = none := by
  rw [parse?_eq_bind, mapM_eq_none member ((plainCharacter?_eq_none_iff isDigit).2 notDecimal)]
  rfl

theorem Numeral.exists_parse?_of_decimal
    {text : List Char} (isLexeme : Lexeme .number text)
    (decimal : ∀ digit ∈ text, Text.isDigit digit → Text.isDecimalDigit digit) :
    ∃ digits count exponent, parse? text = some (.decimal false digits count exponent) := by
  obtain ⟨first, digits, areDigits, rfl | ⟨decimals, areDecimals, rfl⟩⟩ :=
    isLexeme.number_cases rfl
  · obtain ⟨plain, spelled, sameLength, plainDigits⟩ :=
      exists_mapM_plainCharacter? areDigits fun digit member =>
        decimal digit member (areDigits digit member)
    obtain ⟨head, tail, rfl⟩ := List.exists_cons_of_length_eq_add_one sameLength
    have read : parse? (first :: digits) = ofPlain? (head :: tail) := by
      rw [parse?_eq_bind, spelled, Option.bind_some]
    exact ⟨_, _, _, read.trans (ofPlain?_whole plainDigits)⟩
  · obtain ⟨plain, spelled, sameLength, plainDigits⟩ :=
      exists_mapM_plainCharacter? areDigits fun digit member =>
        decimal digit (List.mem_append_left _ member) (areDigits digit member)
    obtain ⟨places, placesSpelled, _, placesDigits⟩ :=
      exists_mapM_plainCharacter? areDecimals fun digit member =>
        decimal digit (by simp [member]) (areDecimals digit member)
    obtain ⟨head, tail, rfl⟩ := List.exists_cons_of_length_eq_add_one sameLength
    have point : plainCharacter? '.' = some '.' := by decide
    have read :
        parse? (first :: (digits ++ '.' :: decimals)) =
          ofPlain? (head :: (tail ++ '.' :: places)) := by
      rw [parse?_eq_bind, ← List.cons_append, List.mapM_append, spelled, List.mapM_cons,
        placesSpelled, point]
      rfl
    exact ⟨_, _, _, read.trans (ofPlain?_fraction plainDigits placesDigits)⟩

/-- The lexeme of a number is a numeral unless one of its digits is not a decimal one. -/
theorem Lexeme.ofText?_eq_none_iff
    {text : List Char} (isLexeme : Lexeme .number text) :
    Binary64.ofText? text = none ↔
      ∃ digit ∈ text, Text.isDigit digit ∧ ¬ Text.isDecimalDigit digit := by
  rw [Binary64.ofText?, Option.map_eq_none_iff]
  constructor
  · intro fails
    apply Decidable.byContradiction
    intro none
    obtain ⟨digits, count, exponent, parses⟩ :=
      Numeral.exists_parse?_of_decimal isLexeme (Text.isDecimalDigit_of_not_exists none)
    rw [fails] at parses
    contradiction
  · rintro ⟨digit, member, isDigit, notDecimal⟩
    exact Numeral.parse?_eq_none member isDigit notDecimal

end LoxSyntax
