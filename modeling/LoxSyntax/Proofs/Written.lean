import LoxSyntax.Proofs.Scan.Lexeme
import LoxSyntax.Value

/-!
# Where the text of a value ends

A number is written with few characters, none of them a blank, a parenthesis, a quote or a
letter of another literal (`numeric_writtenNumber`).  So the text of a value says which value it
is, up to numbers that are written alike (`Value.alike_iff`).

In front of a blank, a closing parenthesis, a line end or nothing it can also be told where the
text of a value ends (`Value.written_append_inj`), as long as a text between quotes has no quote
in it.
-/

namespace LoxSyntax

/-- Whether a number may be written with a character. -/
def isNumeral (character : Char) : Bool :=
  character.isDigit || character ∈ ['.', 'e', '+', '-', 'i', 'n', 'f', 'a']

def Numeric (text : List Char) : Prop :=
  ∀ character ∈ text, isNumeral character

namespace Numeric

variable {first second text : List Char}

theorem append (left : Numeric first) (right : Numeric second) : Numeric (first ++ second) := by
  intro character member
  rcases List.mem_append.1 member with inFirst | inSecond
  · exact left character inFirst
  · exact right character inSecond

theorem cons
    {character : Char} (first : isNumeral character) (others : Numeric text) :
    Numeric (character :: text) := by
  intro other member
  rcases List.mem_cons.1 member with rfl | later
  · exact first
  · exact others other later

theorem of_subset (whole : Numeric text) (subset : first ⊆ text) : Numeric first := by
  intro character member
  exact whole character (subset member)

theorem of_all (all : text.all isNumeral) : Numeric text := by
  intro character member
  exact List.all_eq_true.1 all character member

end Numeric

theorem numeric_toDigits (number : Nat) : Numeric (Nat.toDigits 10 number) := by
  intro character member
  have isDigit := Nat.isDigit_of_mem_toDigits (by omega) (by omega) member
  rw [isNumeral, isDigit, Bool.true_or]

theorem numeric_zeros (count : Nat) : Numeric (List.replicate count '0') := by
  intro character member
  rw [List.eq_of_mem_replicate member]
  decide

theorem numeric_decimal (number : Int) : Numeric (Text.decimal number) := by
  refine .append ?_ (numeric_toDigits _)
  by_cases negative : number < 0
  · rw [if_pos negative]
    exact .of_all (by decide)
  · rw [if_neg negative]
    exact .of_all (by decide)

namespace Binary64

theorem numeric_exponentText (exponent : Int) : Numeric (exponentText exponent) := by
  have sign : isNumeral (if exponent < 0 then '-' else '+') := by
    split <;> decide
  exact .cons (by decide) (.cons sign (.append (numeric_zeros _) (numeric_toDigits _)))

theorem numeric_positionalText
    {digits : List Char} (numeric : Numeric digits) (point : Int) :
    Numeric (positionalText digits point) := by
  have fraction : Numeric (digits.drop point.toNat) :=
    numeric.of_subset (List.drop_subset _ _)
  unfold positionalText
  by_cases inFront : point ≤ 0
  · rw [if_pos inFront]
    exact .cons (by decide) (.cons (by decide) (.append (numeric_zeros _) numeric))
  · rw [if_neg inFront]
    refine .append (.append ?_ (numeric_zeros _)) (.cons (by decide) ?_)
    · exact numeric.of_subset (List.take_subset _ _)
    · split
      · exact .of_all (by decide)
      · exact fraction

theorem numeric_scientificText
    {digits : List Char} (numeric : Numeric digits) (exponent : Int) :
    Numeric (scientificText digits exponent) := by
  unfold scientificText
  refine .append (.append ?_ ?_) (numeric_exponentText exponent)
  · exact numeric.of_subset (List.take_subset _ _)
  · split
    · exact .of_all (by decide)
    · exact .cons (by decide) (numeric.of_subset (List.drop_subset _ _))

theorem numeric_magnitudeText (magnitude : Nat) : Numeric (magnitudeText magnitude) := by
  unfold magnitudeText
  split
  · exact .of_all (by decide)
  · rcases shortestDecimal magnitude with ⟨number, exponent⟩
    have digits :
        Numeric ((Nat.toDigits 10 number).reverse.dropWhile (· = '0')).reverse := by
      refine (numeric_toDigits number).of_subset ?_
      intro character member
      have inDigits := (List.dropWhile_sublist _).subset (List.mem_reverse.1 member)
      exact List.mem_reverse.1 inDigits
    simp only
    split
    · exact numeric_positionalText digits _
    · exact numeric_scientificText digits _

theorem numeric_shortestText (number : Binary64) : Numeric number.shortestText := by
  unfold shortestText
  split
  · exact .of_all (by decide)
  · refine .append ?_ ?_
    · split <;> exact .of_all (by decide)
    · split
      · exact numeric_magnitudeText _
      · exact .of_all (by decide)

end Binary64

theorem numeric_writtenNumber (number : Binary64) : Numeric (Value.writtenNumber number) := by
  unfold Value.writtenNumber
  split
  · exact numeric_decimal _
  · exact Binary64.numeric_shortestText number

/-! ## Words -/

/-- Whether a character may stand behind a value. -/
def delimits (character : Char) : Bool :=
  character ∈ [' ', ')', '\n']

/-- Whether a quoted text, or a node of a tree that is not a literal, begins with a character. -/
def opensNode (character : Char) : Bool :=
  character ∈ ['"', '(', '<']

/-- What may stand behind a value. -/
def Delimited (rest : List Char) : Prop :=
  ∀ character ∈ rest.head?, delimits character

/-- A text that is over in front of what delimits it. -/
def Bare (text : List Char) : Prop :=
  ∀ character ∈ text, !delimits character

theorem delimited_nil : Delimited [] := by
  simp [Delimited]

theorem delimited_cons
    {character : Char} (isDelimiter : delimits character) (rest : List Char) :
    Delimited (character :: rest) := by
  simpa [Delimited] using isDelimiter

theorem Bare.of_all
    {text : List Char}
    (all : text.all fun character => !delimits character) :
    Bare text :=
  List.all_eq_true.1 all

theorem Bare.not_mem_lineFeed {text : List Char} (bare : Bare text) : '\n' ∉ text := by
  intro member
  exact absurd (bare '\n' member) (by decide)

theorem Bare.takeWhile_append
    {word rest : List Char}
    (bare : Bare word) (delimited : Delimited rest) :
    (word ++ rest).takeWhile (fun character => !delimits character) = word := by
  cases rest with
  | nil => rw [List.append_nil, List.takeWhile_eq_self_iff.2 bare]
  | cons next later =>
      have isDelimiter : delimits next := delimited next rfl
      exact takeWhile_append_cons bare (by simp [isDelimiter])

theorem Bare.append_inj
    {first second lefts rights : List Char}
    (firstBare : Bare first) (secondBare : Bare second)
    (leftDelimited : Delimited lefts) (rightDelimited : Delimited rights)
    (equality : first ++ lefts = second ++ rights) :
    first = second ∧ lefts = rights := by
  have words := congrArg (List.takeWhile fun character => !delimits character) equality
  rw [firstBare.takeWhile_append leftDelimited, secondBare.takeWhile_append rightDelimited]
    at words
  rw [words] at equality
  exact ⟨words, List.append_cancel_left equality⟩

/-- A word is over in front of a blank. -/
theorem Bare.cut
    {first second lefts rights : List Char}
    (firstBare : Bare first) (secondBare : Bare second)
    (equality : first ++ ' ' :: lefts = second ++ ' ' :: rights) :
    first = second ∧ lefts = rights := by
  obtain ⟨words, rests⟩ :=
    firstBare.append_inj secondBare (delimited_cons rfl lefts) (delimited_cons rfl rights)
      equality
  exact ⟨words, (List.cons.inj rests).2⟩

theorem Numeric.bare {text : List Char} (numeric : Numeric text) : Bare text := by
  intro character member
  by_cases isDelimiter : delimits character
  · simp only [delimits, decide_eq_true_eq, List.mem_cons, List.not_mem_nil, or_false]
      at isDelimiter
    rcases isDelimiter with rfl | rfl | rfl <;> exact absurd (numeric _ member) (by decide)
  · simpa using isDelimiter

theorem Numeric.not_opensNode
    {text : List Char}
    (numeric : Numeric text) :
    ∀ character ∈ text, ¬ opensNode character := by
  intro character member opens
  simp only [opensNode, decide_eq_true_eq, List.mem_cons, List.not_mem_nil, or_false] at opens
  rcases opens with rfl | rfl | rfl <;> exact absurd (numeric _ member) (by decide)

theorem not_delimits_of_opensNode
    {character : Char}
    (opens : opensNode character) :
    ¬ delimits character := by
  simp only [opensNode, decide_eq_true_eq, List.mem_cons, List.not_mem_nil, or_false] at opens
  rcases opens with rfl | rfl | rfl <;> decide

/-! ## Values -/

namespace Value

/-- Values that are equal, or numbers that are written alike. -/
inductive Alike : Value → Value → Prop
  | same (value : Value) :
      Alike value value
  | numbers {left right : Binary64} :
      writtenNumber left = writtenNumber right →
      Alike (.number left) (.number right)

/-- Whether a text that is a value has no quote in it. -/
def Unquoted : Value → Prop
  | string text => '"' ∉ text.toList
  | _ => True

theorem toList_written_string (text : String) :
    (string text).written.toList = '"' :: (text.toList ++ ['"']) := by
  simp [written]

theorem toList_written_number (value : Binary64) :
    (number value).written.toList = writtenNumber value :=
  String.toList_ofList

/-- The value that is written as a text, unless it is a number. -/
def ofWritten? (text : List Char) : Option Value :=
  match text with
  | '"' :: rest => some (string (String.ofList rest.dropLast))
  | _ =>
      if text = "nil".toList then some nil
      else if text = "true".toList then some (bool true)
      else if text = "false".toList then some (bool false)
      else none

theorem ofWritten?_of_numeric {text : List Char} (numeric : Numeric text) :
    ofWritten? text = none := by
  have different (word : List Char) (notNumeric : ¬ word.all isNumeral) : text ≠ word := by
    rintro rfl
    exact notNumeric (List.all_eq_true.2 numeric)
  unfold ofWritten?
  split
  · exact absurd (numeric '"' (by simp)) (by decide)
  · rw [if_neg (different _ (by decide)), if_neg (different _ (by decide)),
      if_neg (different _ (by decide))]

theorem ofWritten?_written
    {value : Value} (notNumber : ∀ number, value ≠ .number number) :
    ofWritten? value.written.toList = some value := by
  cases value with
  | nil => rfl
  | bool truth => cases truth <;> rfl
  | string text =>
      rw [toList_written_string, ofWritten?, List.dropLast_concat, String.ofList_toList]
  | number number => exact absurd rfl (notNumber number)

theorem alike_of_written_eq
    {left right : Value} (equality : left.written = right.written) :
    left.Alike right := by
  have found : ofWritten? left.written.toList = ofWritten? right.written.toList := by
    rw [equality]
  by_cases leftIs : ∃ number, left = .number number
  · obtain ⟨leftNumber, rfl⟩ := leftIs
    rw [toList_written_number, ofWritten?_of_numeric (numeric_writtenNumber _)] at found
    by_cases rightIs : ∃ number, right = .number number
    · obtain ⟨rightNumber, rfl⟩ := rightIs
      exact .numbers (String.ofList_injective equality)
    · rw [ofWritten?_written (not_exists.1 rightIs)] at found
      exact absurd found nofun
  · rw [ofWritten?_written (not_exists.1 leftIs)] at found
    by_cases rightIs : ∃ number, right = .number number
    · obtain ⟨rightNumber, rfl⟩ := rightIs
      rw [toList_written_number, ofWritten?_of_numeric (numeric_writtenNumber _)] at found
      exact absurd found nofun
    · rw [ofWritten?_written (not_exists.1 rightIs)] at found
      rw [Option.some.inj found]
      exact .same right

/-- Two values are written alike if and only if they are equal, or numbers that are. -/
theorem alike_iff {left right : Value} :
    left.Alike right ↔ left.written = right.written := by
  constructor
  · intro alike
    cases alike with
    | same => rfl
    | numbers equality => exact congrArg String.ofList equality
  · exact alike_of_written_eq

/-- A value without quotes is written as a word, in which no character opens a node. -/
theorem written_of_ne_string
    {value : Value} (notString : ∀ text, value ≠ string text) :
    Bare value.written.toList ∧ ∀ character ∈ value.written.toList, ¬ opensNode character := by
  cases value with
  | nil => exact ⟨.of_all (by decide), by simp [written, opensNode]⟩
  | bool truth =>
      cases truth
      · exact ⟨.of_all (by decide), by simp [written, opensNode]⟩
      · exact ⟨.of_all (by decide), by simp [written, opensNode]⟩
  | string text => exact absurd rfl (notString text)
  | number value =>
      have numeric := numeric_writtenNumber value
      rw [toList_written_number]
      exact ⟨numeric.bare, numeric.not_opensNode⟩

theorem written_append_ne
    {value : Value} {mark : Char} {rest : List Char}
    (notString : ∀ text, value ≠ string text)
    (opens : opensNode mark) (delimited : Delimited rest) (later : List Char) :
    value.written.toList ++ rest ≠ mark :: later := by
  intro equality
  have closed := (written_of_ne_string notString).2
  cases text : value.written.toList with
  | nil =>
      rw [text, List.nil_append] at equality
      exact not_delimits_of_opensNode opens (delimited mark (by simp [equality]))
  | cons first others =>
      rw [text, List.cons_append] at equality
      rw [text, (List.cons.inj equality).1] at closed
      exact closed mark List.mem_cons_self opens

/-- A node of a tree that is not a literal begins with another mark than a value. -/
theorem written_append_ne_node
    {mark : Char} {rest : List Char}
    (opens : opensNode mark) (notQuote : mark ≠ '"') (delimited : Delimited rest)
    (value : Value) (later : List Char) :
    value.written.toList ++ rest ≠ mark :: later := by
  by_cases isString : ∃ text, value = string text
  · obtain ⟨text, rfl⟩ := isString
    rw [toList_written_string]
    intro equality
    exact notQuote (List.cons.inj equality).1.symm
  · exact written_append_ne (not_exists.1 isString) opens delimited later

/-- In front of what may stand behind a value, the text of the value is over. -/
theorem written_append_inj
    {left right : Value} {lefts rights : List Char}
    (leftUnquoted : left.Unquoted) (rightUnquoted : right.Unquoted)
    (leftDelimited : Delimited lefts) (rightDelimited : Delimited rights)
    (equality : left.written.toList ++ lefts = right.written.toList ++ rights) :
    left.Alike right ∧ lefts = rights := by
  suffices left.written.toList = right.written.toList by
    rw [this] at equality
    exact ⟨alike_iff.2 (String.toList_injective this), List.append_cancel_left equality⟩
  by_cases leftIs : ∃ text, left = string text
  · obtain ⟨leftText, rfl⟩ := leftIs
    by_cases rightIs : ∃ text, right = string text
    · obtain ⟨rightText, rfl⟩ := rightIs
      rw [toList_written_string, toList_written_string] at equality ⊢
      have bodies :
          leftText.toList ++ '"' :: lefts = rightText.toList ++ '"' :: rights := by
        simpa using equality
      have same := congrArg (List.takeWhile (· ≠ '"')) bodies
      rw [Opening.takeWhile_body leftUnquoted, Opening.takeWhile_body rightUnquoted] at same
      rw [same]
    · rw [toList_written_string, List.cons_append] at equality
      exact absurd equality.symm
        (written_append_ne (not_exists.1 rightIs) (by decide) rightDelimited _)
  · by_cases rightIs : ∃ text, right = string text
    · obtain ⟨rightText, rfl⟩ := rightIs
      rw [toList_written_string, List.cons_append] at equality
      exact absurd equality
        (written_append_ne (not_exists.1 leftIs) (by decide) leftDelimited _)
    · have leftBare := (written_of_ne_string (not_exists.1 leftIs)).1
      have rightBare := (written_of_ne_string (not_exists.1 rightIs)).1
      exact (leftBare.append_inj rightBare leftDelimited rightDelimited equality).1

end Value

end LoxSyntax
