import Mathlib.Data.List.Infix
import Mathlib.Data.List.TakeWhile
import LoxSyntax.Proofs.Scan.Opening

/-!
# Lexemes

`Lexeme kind text` says which texts are tokens of a kind, each class of tokens by a rule of its
own.  `opening.tail rest` is how much of `rest` a token takes behind its first character, when
that opens it so.

The two agree: the first character and the tail are a lexeme (`lexeme_cons_tail`), of the kind
that every lexeme with these characters has (`Lexeme.kind_eq`), and no longer one begins the
same text (`Lexeme.isPrefix_tail`).
-/

namespace LoxSyntax

/-- `Lexeme kind text` when `text` as a whole is a token of the given kind. -/
inductive Lexeme : TokenKind → List Char → Prop
  | mark {character : Char} {kind : TokenKind} :
      (character, kind) ∈ TokenKind.marks →
      Lexeme kind [character]
  | single {character : Char} {double single : TokenKind} :
      (character, double, single) ∈ TokenKind.pairs →
      Lexeme single [character]
  | double {character : Char} {double single : TokenKind} :
      (character, double, single) ∈ TokenKind.pairs →
      Lexeme double [character, '=']
  | slash :
      Lexeme .slash ['/']
  | unclosedString {body : List Char} :
      '"' ∉ body →
      Lexeme .string ('"' :: body)
  | closedString {body : List Char} :
      '"' ∉ body →
      Lexeme .string ('"' :: (body ++ ['"']))
  | whole {first : Char} {digits : List Char} :
      Text.isDigit first →
      (∀ digit ∈ digits, Text.isDigit digit) →
      Lexeme .number (first :: digits)
  | fraction {first : Char} {digits decimals : List Char} :
      Text.isDigit first →
      (∀ digit ∈ digits, Text.isDigit digit) →
      (∀ digit ∈ decimals, Text.isDigit digit) →
      Lexeme .number (first :: (digits ++ '.' :: decimals))
  | word {kind : TokenKind} {first : Char} {others : List Char} :
      Text.isLetter first →
      (∀ character ∈ others,
        Text.isLetter character ∨ Text.isNumeric character ∨ character = '-') →
      ((String.ofList (first :: others), kind) ∈ TokenKind.keywords ∨
        kind = .identifier ∧
          ∀ other, (String.ofList (first :: others), other) ∉ TokenKind.keywords) →
      Lexeme kind (first :: others)

theorem Scan.isWordCharacter_iff {character : Char} :
    isWordCharacter character ↔
      Text.isLetter character ∨ Text.isNumeric character ∨ character = '-' := by
  rw [isWordCharacter, Bool.or_eq_true, Bool.or_eq_true, decide_eq_true_eq, or_assoc]

/-- The kind of a word is the one that the table of reserved words lists, or an identifier. -/
theorem TokenKind.eq_ofWord_iff {kind : TokenKind} {word : String} :
    kind = ofWord word ↔
      (word, kind) ∈ keywords ∨ kind = .identifier ∧ ∀ other, (word, other) ∉ keywords := by
  have each : ∀ entry ∈ keywords, ofWord entry.1 = entry.2 := by decide
  constructor
  · rintro rfl
    cases found : keywords.lookup word with
    | none =>
        refine .inr ⟨by rw [ofWord, found, Option.getD_none], fun other member => ?_⟩
        simpa using List.lookup_eq_none_iff.1 found _ member
    | some kind =>
        obtain ⟨before, after, split, _⟩ := List.lookup_eq_some_iff.1 found
        rw [ofWord, found, Option.getD_some, split]
        exact .inl (List.mem_append_right _ List.mem_cons_self)
  · rintro (listed | ⟨rfl, unlisted⟩)
    · exact (each _ listed).symm
    · have missing : keywords.lookup word = none :=
        List.lookup_eq_none_iff.2 fun entry member => by
          refine bne_iff_ne.2 ?_
          rintro rfl
          exact unlisted _ member
      rw [ofWord, missing, Option.getD_none]

namespace Opening

/-- The characters that a token takes behind its first one. -/
def tail : Opening → List Char → List Char
  | mark _, _ => []
  | pair _ _, rest => if rest.take 1 = ['='] then ['='] else []
  | slash, _ => []
  | quote, rest =>
      let body := rest.takeWhile (· ≠ '"')
      body ++ (rest.drop body.length).take 1
  | digit, rest =>
      let whole := rest.takeWhile Text.isDigit
      match rest.drop whole.length with
      | '.' :: decimals => whole ++ '.' :: decimals.takeWhile Text.isDigit
      | _ => whole
  | letter, rest => rest.takeWhile Scan.isWordCharacter
  | unknown, _ => []

/-- The kind of a token, given all its characters. -/
def kind (lexeme : List Char) : Opening → TokenKind
  | mark kind => kind
  | pair double single => if lexeme.length = 1 then single else double
  | slash => .slash
  | quote => .string
  | digit => .number
  | letter => TokenKind.ofWord (String.ofList lexeme)
  | unknown => .endOfInput

end Opening

section Runs

variable {test : Char → Bool} {run rest : List Char}

theorem takeWhile_append_drop (test : Char → Bool) (rest : List Char) :
    rest.takeWhile test ++ rest.drop (rest.takeWhile test).length = rest :=
  (List.prefix_append_drop (List.takeWhile_prefix test)).symm

/-- A run at the beginning of a text is part of the longest one. -/
theorem isPrefix_takeWhile
    (isPrefix : run <+: rest) (all : ∀ character ∈ run, test character) :
    run <+: rest.takeWhile test := by
  obtain ⟨later, rfl⟩ := isPrefix
  rw [List.takeWhile_append_of_pos all]
  exact List.prefix_append _ _

theorem takeWhile_append_cons
    {next : Char} {later : List Char}
    (all : ∀ character ∈ run, test character) (ends : ¬ test next) :
    (run ++ next :: later).takeWhile test = run := by
  rw [List.takeWhile_append_of_pos all, List.takeWhile_cons_of_neg ends, List.append_nil]

/-- Behind the longest run stands nothing or a character that does not belong to it. -/
theorem not_test_of_drop_takeWhile
    {next : Char} {later : List Char}
    (behind : rest.drop (rest.takeWhile test).length = next :: later) :
    ¬ test next := by
  induction rest with
  | nil => simp at behind
  | cons character rest ih =>
      by_cases continues : test character
      · rw [List.takeWhile_cons_of_pos continues] at behind
        exact ih behind
      · rw [List.takeWhile_cons_of_neg continues] at behind
        simp only [List.length_nil, List.drop_zero, List.cons.injEq] at behind
        rw [← behind.1]
        exact continues

end Runs

/-! ## The tail of a token -/

namespace Opening

theorem ne_quote_of_not_mem
    {body : List Char} (noQuote : '"' ∉ body) :
    ∀ character ∈ body, decide (character ≠ '"') := by
  intro character member
  refine decide_eq_true ?_
  rintro rfl
  exact noQuote member

theorem takeWhile_body
    {body : List Char} (noQuote : '"' ∉ body) (later : List Char) :
    (body ++ '"' :: later).takeWhile (· ≠ '"') = body :=
  takeWhile_append_cons (ne_quote_of_not_mem noQuote) (by decide)

theorem tail_quote_append
    {body : List Char} (noQuote : '"' ∉ body) (later : List Char) :
    quote.tail (body ++ '"' :: later) = body ++ ['"'] := by
  simp only [tail, takeWhile_body noQuote, List.drop_left, List.take_succ_cons, List.take_zero]

theorem tail_quote_of_not_mem {rest : List Char} (noQuote : '"' ∉ rest) :
    quote.tail rest = rest := by
  have run : rest.takeWhile (· ≠ '"') = rest :=
    List.takeWhile_eq_self_iff.2 (ne_quote_of_not_mem noQuote)
  simp only [tail, run, List.drop_length, List.take_nil, List.append_nil]

theorem tail_digit_append
    {digits : List Char} (all : ∀ digit ∈ digits, Text.isDigit digit) (decimals : List Char) :
    digit.tail (digits ++ '.' :: decimals) =
      digits ++ '.' :: decimals.takeWhile Text.isDigit := by
  have run : (digits ++ '.' :: decimals).takeWhile Text.isDigit = digits :=
    takeWhile_append_cons all (by decide)
  simp only [tail, run, List.drop_left]

theorem tail_digit_of_ne_point
    {rest : List Char}
    (noPoint : ∀ decimals, rest.drop (rest.takeWhile Text.isDigit).length ≠ '.' :: decimals) :
    digit.tail rest = rest.takeWhile Text.isDigit := by
  simp only [tail]

theorem exists_body (rest : List Char) :
    ∃ body, '"' ∉ body ∧ (rest = body ∨ ∃ later, rest = body ++ '"' :: later) := by
  have split := takeWhile_append_drop (· ≠ '"') rest
  have noQuote : '"' ∉ rest.takeWhile (· ≠ '"') := by
    intro member
    simpa using List.mem_takeWhile_imp member
  refine ⟨rest.takeWhile (· ≠ '"'), noQuote, ?_⟩
  cases behind : rest.drop (rest.takeWhile (· ≠ '"')).length with
  | nil =>
      rw [behind, List.append_nil] at split
      exact Or.inl split.symm
  | cons next later =>
      have isQuote : next = '"' := by
        simpa using not_test_of_drop_takeWhile behind
      rw [behind, isQuote] at split
      exact Or.inr ⟨later, split.symm⟩

theorem exists_digits (rest : List Char) :
    ∃ digits later, (∀ digit ∈ digits, Text.isDigit digit) ∧ rest = digits ++ later ∧
      ((∃ decimals, later = '.' :: decimals) ∨ digit.tail rest = digits) := by
  refine ⟨_, _, fun _ member => List.mem_takeWhile_imp member,
    (takeWhile_append_drop Text.isDigit rest).symm, ?_⟩
  by_cases point : ∃ decimals,
      rest.drop (rest.takeWhile Text.isDigit).length = '.' :: decimals
  · exact Or.inl point
  · apply Or.inr
    apply tail_digit_of_ne_point
    intro decimals equality
    exact point ⟨decimals, equality⟩

theorem takeWhile_isPrefix_tail_digit (rest : List Char) :
    rest.takeWhile Text.isDigit <+: digit.tail rest := by
  rw [tail]
  split
  · exact List.prefix_append _ _
  · exact List.prefix_rfl

/-- A token takes characters from the front. -/
theorem tail_isPrefix (opening : Opening) (rest : List Char) :
    opening.tail rest <+: rest := by
  cases opening with
  | mark kind => exact List.nil_prefix
  | pair double single =>
      rw [tail]
      split
      · rename_i equals
        rw [← equals]
        exact List.take_prefix 1 rest
      · exact List.nil_prefix
  | slash => exact List.nil_prefix
  | quote =>
      obtain ⟨body, noQuote, rfl | ⟨later, rfl⟩⟩ := exists_body rest
      · simp only [tail_quote_of_not_mem noQuote, List.prefix_rfl]
      · rw [tail_quote_append noQuote]
        exact ⟨later, by simp⟩
  | digit =>
      obtain ⟨digits, later, all, rfl, ⟨decimals, rfl⟩ | short⟩ := exists_digits rest
      · rw [tail_digit_append all]
        exact (List.prefix_append_right_inj _).2
          ((List.prefix_cons_inj _).2 (List.takeWhile_prefix _))
      · rw [short]
        exact List.prefix_append _ _
  | letter => exact List.takeWhile_prefix _
  | unknown => exact List.nil_prefix

end Opening

/-! ## The longest lexeme -/

/-- The characters that are taken are a lexeme. -/
theorem lexeme_cons_tail
    {character : Char} {opening : Opening} (admits : opening.Admits character)
    (known : opening ≠ .unknown) (rest : List Char) :
    Lexeme (opening.kind (character :: opening.tail rest))
      (character :: opening.tail rest) := by
  cases opening with
  | mark kind => exact .mark admits
  | pair double single =>
      rw [Opening.tail]
      split
      · exact .double admits
      · exact .single admits
  | slash =>
      rw [show character = '/' from admits]
      exact .slash
  | quote =>
      rw [show character = '"' from admits]
      obtain ⟨body, noQuote, rfl | ⟨later, rfl⟩⟩ := Opening.exists_body rest
      · rw [Opening.tail_quote_of_not_mem noQuote]
        exact .unclosedString noQuote
      · rw [Opening.tail_quote_append noQuote]
        exact .closedString noQuote
  | digit =>
      obtain ⟨digits, later, all, rfl, ⟨decimals, rfl⟩ | short⟩ := Opening.exists_digits rest
      · rw [Opening.tail_digit_append all]
        exact .fraction admits all fun _ member => List.mem_takeWhile_imp member
      · rw [short]
        exact .whole admits all
  | letter =>
      refine .word admits ?_ (TokenKind.eq_ofWord_iff.1 rfl)
      exact fun _ member => Scan.isWordCharacter_iff.1 (List.mem_takeWhile_imp member)
  | unknown => exact absurd rfl known

/-- A lexeme has the kind that its first character and its length give it. -/
theorem Lexeme.kind_eq
    {kind : TokenKind} {character : Char} {others : List Char}
    (lexeme : Lexeme kind (character :: others)) :
    kind = (Opening.ofChar character).kind (character :: others) := by
  cases lexeme with
  | @mark _ kind member =>
      have opens : Opening.ofChar character = .mark kind := Opening.ofChar_eq_iff.2 member
      rw [opens, Opening.kind]
  | @single _ double _ member =>
      have opens : Opening.ofChar character = .pair double kind :=
        Opening.ofChar_eq_iff.2 member
      rw [opens]
      rfl
  | @double _ _ single member =>
      have opens : Opening.ofChar character = .pair kind single :=
        Opening.ofChar_eq_iff.2 member
      rw [opens]
      rfl
  | slash => rfl
  | unclosedString => rfl
  | closedString => rfl
  | whole isDigit =>
      have opens : Opening.ofChar character = .digit := Opening.ofChar_eq_iff.2 isDigit
      rw [opens, Opening.kind]
  | fraction isDigit =>
      have opens : Opening.ofChar character = .digit := Opening.ofChar_eq_iff.2 isDigit
      rw [opens, Opening.kind]
  | word isLetter _ named =>
      have opens : Opening.ofChar character = .letter := Opening.ofChar_eq_iff.2 isLetter
      rw [opens, Opening.kind, TokenKind.eq_ofWord_iff.2 named]

/-- A lexeme at the beginning of a text is no longer than what is taken. -/
theorem Lexeme.isPrefix_tail
    {kind : TokenKind} {character : Char} {others rest : List Char}
    (lexeme : Lexeme kind (character :: others)) (isPrefix : others <+: rest) :
    others <+: (Opening.ofChar character).tail rest := by
  cases lexeme with
  | mark => exact List.nil_prefix
  | single => exact List.nil_prefix
  | @double _ _ single member =>
      have opens : Opening.ofChar character = .pair kind single :=
        Opening.ofChar_eq_iff.2 member
      obtain ⟨later, rfl⟩ := isPrefix
      rw [opens]
      simp [Opening.tail]
  | slash => exact List.nil_prefix
  | unclosedString noQuote =>
      have opens : Opening.ofChar '"' = .quote := rfl
      rw [opens, Opening.tail]
      exact (isPrefix_takeWhile isPrefix (Opening.ne_quote_of_not_mem noQuote)).trans
        (List.prefix_append _ _)
  | closedString noQuote =>
      have opens : Opening.ofChar '"' = .quote := rfl
      obtain ⟨later, rfl⟩ := isPrefix
      simp only [opens, List.append_assoc, List.singleton_append,
        Opening.tail_quote_append noQuote, List.prefix_rfl]
  | whole isDigit digits =>
      have opens : Opening.ofChar character = .digit := Opening.ofChar_eq_iff.2 isDigit
      rw [opens]
      exact (isPrefix_takeWhile isPrefix digits).trans
        (Opening.takeWhile_isPrefix_tail_digit rest)
  | fraction isDigit digits decimals =>
      have opens : Opening.ofChar character = .digit := Opening.ofChar_eq_iff.2 isDigit
      obtain ⟨later, rfl⟩ := isPrefix
      rw [opens, List.append_assoc, List.cons_append, Opening.tail_digit_append digits]
      exact (List.prefix_append_right_inj _).2 ((List.prefix_cons_inj _).2
        (isPrefix_takeWhile (List.prefix_append _ _) decimals))
  | word isLetter areWord =>
      have opens : Opening.ofChar character = .letter := Opening.ofChar_eq_iff.2 isLetter
      rw [opens]
      exact isPrefix_takeWhile isPrefix fun _ member =>
        Scan.isWordCharacter_iff.2 (areWord _ member)

/-- `LongestLexeme ahead kind lexeme` when no lexeme at the beginning of `ahead` is longer than
`lexeme`, which is one of the given kind and of no other. -/
structure LongestLexeme (ahead : List Char) (kind : TokenKind) (lexeme : List Char) : Prop where
  isPrefix : lexeme <+: ahead
  isLexeme : Lexeme kind lexeme
  length_le : ∀ {other : TokenKind} {candidate : List Char},
    candidate <+: ahead → Lexeme other candidate → candidate.length ≤ lexeme.length
  kind_unique : ∀ {other : TokenKind}, Lexeme other lexeme → other = kind

/-- A token takes the longest lexeme. -/
theorem longestLexeme_cons_tail
    {character : Char} (known : Opening.ofChar character ≠ .unknown) (rest : List Char) :
    let lexeme := character :: (Opening.ofChar character).tail rest
    LongestLexeme (character :: rest) ((Opening.ofChar character).kind lexeme) lexeme := by
  intro lexeme
  refine ⟨?_, lexeme_cons_tail (Opening.admits_ofChar character) known rest, ?_,
    Lexeme.kind_eq⟩
  · exact (List.prefix_cons_inj character).2 (Opening.tail_isPrefix _ rest)
  · intro other candidate isPrefix isLexeme
    cases candidate with
    | nil => exact Nat.zero_le _
    | cons first others =>
        obtain ⟨rfl, others_isPrefix⟩ := List.cons_prefix_cons.1 isPrefix
        exact Nat.succ_le_succ (isLexeme.isPrefix_tail others_isPrefix).length_le

end LoxSyntax
