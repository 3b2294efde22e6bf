import LoxSyntax.Scan.Tokens

/-!
# The first character of a token

The classes of characters that a token may begin with exclude one another, so that the class of
the first character can be read off (`Opening.ofChar_eq_iff`).
-/

namespace LoxSyntax

namespace Text

/-- Whether no range of one list meets a range of the other.  Ranges on the right that end in
front of a range on the left are not looked at again. -/
def rangesApart : (lefts rights : List (Nat × Nat)) → Bool
  | [], _ => true
  | left :: lefts, rights =>
      let later := rights.dropWhile fun right => right.2.blt left.1
      (match later with
        | [] => true
        | right :: _ => left.2.blt right.1) && rangesApart lefts later

/-- A code point lies in none of the ranges that end in front of it. -/
theorem inRanges_dropWhile
    {ranges : List (Nat × Nat)} {bound code : Nat}
    (inside : inRanges ranges code) (above : bound ≤ code) :
    inRanges (ranges.dropWhile fun range => range.2.blt bound) code := by
  induction ranges with
  | nil => exact inside
  | cons range ranges ih =>
      by_cases before : range.2 < bound
      · rw [List.dropWhile_cons_of_pos (by simpa [Nat.blt_eq] using before)]
        simp only [inRanges, Bool.and_eq_true, Bool.or_eq_true, decide_eq_true_eq] at inside
        exact ih (inside.2.resolve_left (by omega))
      · rw [List.dropWhile_cons_of_neg (by simpa [Nat.blt_eq] using before)]
        exact inside

theorem not_inRanges_of_apart
    {lefts rights : List (Nat × Nat)} (apart : rangesApart lefts rights) {code : Nat}
    (inLefts : inRanges lefts code) :
    ¬ inRanges rights code := by
  intro inRights
  induction lefts generalizing rights with
  | nil => simp [inRanges] at inLefts
  | cons left lefts ih =>
      simp only [inRanges, Bool.and_eq_true, Bool.or_eq_true, decide_eq_true_eq] at inLefts
      simp only [rangesApart, Bool.and_eq_true] at apart
      have inLater := inRanges_dropWhile inRights inLefts.1
      rcases inLefts.2 with notAbove | further
      · split at apart
        · rename_i none
          simp [none, inRanges] at inLater
        · rename_i right others some
          simp only [some, inRanges, Bool.and_eq_true, decide_eq_true_eq] at inLater
          have behind : left.2 < right.1 := by simpa [Nat.blt_eq] using apart.1
          omega
      · exact ih apart.2 further inLater

/-- No digit is a letter. -/
theorem not_isLetter_of_isDigit
    {character : Char} (isDigit : isDigit character) :
    ¬ isLetter character :=
  not_inRanges_of_apart (by decide +kernel) isDigit

end Text

namespace Opening

/-- Whether a token whose first character is the given one may open like this. -/
def Admits (character : Char) : Opening → Prop
  | mark kind => (character, kind) ∈ TokenKind.marks
  | pair double single => (character, double, single) ∈ TokenKind.pairs
  | slash => character = '/'
  | quote => character = '"'
  | digit => Text.isDigit character
  | letter => Text.isLetter character
  | unknown =>
      character ∉ TokenKind.marks.map Prod.fst ∧
        character ∉ TokenKind.pairs.map Prod.fst ∧
        character ≠ '/' ∧ character ≠ '"' ∧
        ¬ Text.isDigit character ∧ ¬ Text.isLetter character

theorem mem_of_lookup_eq_some
    {α : Type} {entries : List (Char × α)} {character : Char} {value : α}
    (found : entries.lookup character = some value) :
    (character, value) ∈ entries := by
  obtain ⟨before, after, rfl, _⟩ := List.lookup_eq_some_iff.1 found
  simp

theorem not_mem_of_lookup_eq_none
    {α : Type} {entries : List (Char × α)} {character : Char}
    (missing : entries.lookup character = none) :
    character ∉ entries.map Prod.fst := by
  intro member
  obtain ⟨entry, entryMember, rfl⟩ := List.mem_map.1 member
  simpa using List.lookup_eq_none_iff.1 missing entry entryMember

theorem lookup_eq_none_of_not_mem
    {α : Type} {entries : List (Char × α)} {character : Char}
    (missing : character ∉ entries.map Prod.fst) :
    entries.lookup character = none := by
  rw [List.lookup_eq_none_iff]
  intro entry member
  have different : character ≠ entry.1 := by
    intro equality
    exact missing (List.mem_map.2 ⟨entry, member, equality.symm⟩)
  simpa using different

/-- A character opens a token of the class that it is found to open. -/
theorem admits_ofChar (character : Char) : (ofChar character).Admits character := by
  rw [ofChar]
  split
  · exact mem_of_lookup_eq_some ‹_›
  · exact mem_of_lookup_eq_some ‹_›
  · rename_i noMark noPair
    split
    · assumption
    split
    · assumption
    split
    · assumption
    split
    · assumption
    · exact ⟨not_mem_of_lookup_eq_none noMark, not_mem_of_lookup_eq_none noPair,
        by assumption, by assumption, by assumption, by assumption⟩

theorem not_mem_marks
    {character : Char} (isWord : Text.isDigit character ∨ Text.isLetter character) :
    character ∉ TokenKind.marks.map Prod.fst ∧ character ∉ TokenKind.pairs.map Prod.fst ∧
      character ≠ '/' ∧ character ≠ '"' := by
  have all :
      (TokenKind.marks.map Prod.fst ++ TokenKind.pairs.map Prod.fst ++ ['/', '"']).all
        fun mark => !(Text.isDigit mark || Text.isLetter mark) :=
    rfl
  have apart :
      character ∉ TokenKind.marks.map Prod.fst ++ TokenKind.pairs.map Prod.fst ++ ['/', '"'] := by
    intro member
    have notWord := List.all_eq_true.1 all character member
    rw [Bool.not_eq_true', Bool.or_eq_false_iff] at notWord
    simp [notWord] at isWord
  simpa [and_assoc] using apart

/-- The class of a first character is the one that admits it. -/
theorem ofChar_eq_iff {character : Char} {opening : Opening} :
    ofChar character = opening ↔ opening.Admits character := by
  constructor
  · rintro rfl
    exact admits_ofChar character
  · intro admits
    cases opening with
    | mark kind =>
        have each : ∀ entry ∈ TokenKind.marks, ofChar entry.1 = mark entry.2 := by decide
        exact each _ admits
    | pair double single =>
        have each :
            ∀ entry ∈ TokenKind.pairs, ofChar entry.1 = pair entry.2.1 entry.2.2 := by
          decide
        exact each _ admits
    | slash =>
        rw [show character = '/' from admits]
        decide
    | quote =>
        rw [show character = '"' from admits]
        decide
    | digit =>
        obtain ⟨noMark, noPair, notSlash, notQuote⟩ := not_mem_marks (Or.inl admits)
        rw [ofChar, lookup_eq_none_of_not_mem noMark, lookup_eq_none_of_not_mem noPair]
        simp [notSlash, notQuote, show Text.isDigit character from admits]
    | letter =>
        obtain ⟨noMark, noPair, notSlash, notQuote⟩ := not_mem_marks (Or.inr admits)
        have notDigit : ¬ Text.isDigit character := by
          intro isDigit
          exact Text.not_isLetter_of_isDigit isDigit admits
        rw [ofChar, lookup_eq_none_of_not_mem noMark, lookup_eq_none_of_not_mem noPair]
        simp [notSlash, notQuote, notDigit, show Text.isLetter character from admits]
    | unknown =>
        obtain ⟨noMark, noPair, notSlash, notQuote, notDigit, notLetter⟩ := admits
        rw [ofChar, lookup_eq_none_of_not_mem noMark, lookup_eq_none_of_not_mem noPair]
        simp [notSlash, notQuote, notDigit, notLetter]

end Opening

end LoxSyntax
