import LoxSyntax.Proofs.Scan.LineCount
import LoxSyntax.Proofs.Scan.Spacing

/-!
# Longer texts

How a token is read depends on its own characters and on the one behind them.  So a token that
does not touch the end of a text is read in every longer text as well (`Extended.next`), and
where a character ends the input nothing behind it is read at all.

Text that is added behind a source text can therefore change the last token only
(`Token.ofSource_append`).
-/

namespace LoxSyntax

open Layout

theorem takeWhile_append_of_lt
    {test : Char → Bool} {rest : List Char}
    (inside : (rest.takeWhile test).length < rest.length) (more : List Char) :
    (rest ++ more).takeWhile test = rest.takeWhile test := by
  rw [List.takeWhile_append, if_neg (Nat.ne_of_lt inside)]

namespace Opening

theorem tail_digit_append_of_lt
    {rest : List Char} (inside : (digit.tail rest).length < rest.length)
    (more : List Char) :
    digit.tail (rest ++ more) = digit.tail rest := by
  have split := takeWhile_append_drop Text.isDigit rest
  have digits : ∀ character ∈ rest.takeWhile Text.isDigit, Text.isDigit character :=
    fun _ member => List.mem_takeWhile_imp member
  cases behind : rest.drop (rest.takeWhile Text.isDigit).length with
  | nil =>
      rw [behind, List.append_nil] at split
      rw [tail_digit_of_ne_point (by simp [behind]), split] at inside
      exact absurd inside (Nat.lt_irrefl _)
  | cons next later =>
      rw [behind] at split
      by_cases point : next = '.'
      · subst point
        rw [← split, tail_digit_append digits] at inside
        have ends : (later.takeWhile Text.isDigit).length < later.length := by
          simpa using inside
        rw [← split, List.append_assoc, List.cons_append, tail_digit_append digits,
          tail_digit_append digits, takeWhile_append_of_lt ends]
      · have ends : (rest.takeWhile Text.isDigit).length < rest.length := by
          have whole := congrArg List.length split
          simp only [List.length_append, List.length_cons] at whole
          omega
        have run := takeWhile_append_of_lt ends more
        rw [tail_digit_of_ne_point, tail_digit_of_ne_point, run]
        · simp [behind, point]
        · rw [run, List.drop_append_of_le_length (Nat.le_of_lt ends), behind]
          simp [point]

/-- A tail that ends inside a text is the same in front of more text. -/
theorem tail_append_of_lt
    {opening : Opening} {rest : List Char}
    (inside : (opening.tail rest).length < rest.length) (more : List Char) :
    opening.tail (rest ++ more) = opening.tail rest := by
  cases opening with
  | mark | slash | unknown => rfl
  | pair double single =>
      cases rest with
      | nil => exact absurd inside (Nat.not_lt_zero _)
      | cons next later => simp [tail]
  | quote =>
      obtain ⟨body, noQuote, rfl | ⟨later, rfl⟩⟩ := exists_body rest
      · rw [tail_quote_of_not_mem noQuote] at inside
        exact absurd inside (Nat.lt_irrefl _)
      · rw [List.append_assoc, List.cons_append, tail_quote_append noQuote,
          tail_quote_append noQuote]
  | digit => exact tail_digit_append_of_lt inside more
  | letter => exact takeWhile_append_of_lt inside more

end Opening

namespace Layout

variable {character : Char} {later more : List Char}

/-- No comment begins with a character where none did, unless a slash was the last one. -/
theorem not_comment_append
    (noComment : ¬ ['/', '/'] <+: character :: later)
    (apart : later ≠ [] ∨ ¬ ['/', '/'] <+: character :: more) :
    ¬ ['/', '/'] <+: character :: (later ++ more) := by
  cases later with
  | nil => exact apart.resolve_left (absurd rfl)
  | cons next others =>
      intro isComment
      apply noComment
      simp only [List.cons_append, List.cons_prefix_cons] at isComment ⊢
      exact ⟨isComment.1, isComment.2.1, List.nil_prefix⟩

/-- Layout that ends inside a text is the same in front of more text. -/
theorem run_append
    {inComment : Bool} {text : List Char}
    (behind : text.drop (run inComment text).length = character :: later)
    (noComment : ¬ ['/', '/'] <+: character :: (later ++ more)) :
    run inComment (text ++ more) = run inComment text := by
  fun_induction run inComment text with
  | case1 => simp at behind
  | case2 first rest ih => rw [List.cons_append, run, ih behind]
  | case3 rest ih => rw [List.cons_append, List.cons_append, run, ih behind]
  | case4 first rest _ isBlank ih =>
      rw [List.cons_append, run_false_of_blank isBlank, ih behind]
  | case5 first rest _ notBlank =>
      simp only [List.length_nil, List.drop_zero, List.cons.injEq] at behind
      obtain ⟨rfl, rfl⟩ := behind
      exact leading_eq_nil notBlank noComment

end Layout

namespace Scan

/-! ## Scans of longer texts -/

/-- `Extended more scan longer` when `longer` has the same in front of it as `scan`, on the same
line, and then more. -/
structure Extended (more : List Char) (scan longer : Scan) : Prop where
  rest : longer.rest = scan.rest ++ more
  line : longer.line = scan.line

namespace Extended

variable {more : List Char} {scan longer : Scan} (extended : Extended more scan longer)

include extended

theorem forward {count : Nat} (inside : count ≤ scan.rest.length) :
    Extended more (scan.forward count) (longer.forward count) := by
  refine ⟨?_, ?_⟩
  · simp only [Scan.forward, extended.rest, List.drop_append_of_le_length inside]
  · simp only [Scan.forward, extended.rest, extended.line,
      List.take_append_of_le_length inside]

theorem skipLayout
    {character : Char} {later : List Char}
    (behind : scan.rest.drop (leading scan.rest).length = character :: later)
    (noComment : ¬ ['/', '/'] <+: character :: (later ++ more)) :
    Extended more scan.skipLayout.setMark longer.skipLayout.setMark := by
  have layout : leading longer.rest = leading scan.rest := by
    rw [extended.rest]
    exact run_append behind noComment
  have inside := (run_isPrefix false scan.rest).length_le
  obtain ⟨rest, line⟩ := extended.forward inside
  refine ⟨?_, ?_⟩
  · rw [Scan.skipLayout, layout]
    exact rest
  · rw [Scan.skipLayout, layout]
    exact line

/-- A token with the same tail in the longer text is read there as well. -/
theorem next_of_tail_eq
    {character : Char} {later : List Char}
    (behind : scan.rest.drop (leading scan.rest).length = character :: later)
    (apart : later ≠ [] ∨ ¬ ['/', '/'] <+: character :: more)
    (tail : (Opening.ofChar character).tail (later ++ more) =
      (Opening.ofChar character).tail later) :
    longer.next.1 = scan.next.1 ∧ Extended more scan.next.2 longer.next.2 := by
  have noComment := not_comment_append (not_layout_of_behind behind).2 apart
  have started := extended.skipLayout behind noComment
  have ahead : scan.skipLayout.setMark.rest = character :: later := behind
  have longerBehind :
      longer.rest.drop (leading longer.rest).length = character :: (later ++ more) := by
    have rest := started.rest
    rw [ahead] at rest
    exact rest
  have inside :
      (character :: (Opening.ofChar character).tail later).length ≤
        scan.skipLayout.setMark.rest.length := by
    rw [ahead]
    exact Nat.succ_le_succ (Opening.tail_isPrefix _ later).length_le
  obtain ⟨rest, line⟩ := started.forward inside
  rw [next_eq behind, next_eq longerBehind, tail]
  exact ⟨by rw [line], rest, line⟩

/-- A token that does not touch the end of the text is read in the longer text as well. -/
theorem next (goesOn : scan.next.2.rest ≠ []) :
    longer.next.1 = scan.next.1 ∧ Extended more scan.next.2 longer.next.2 := by
  cases behind : scan.rest.drop (leading scan.rest).length with
  | nil =>
      rw [next_of_nil behind] at goesOn
      exact absurd behind goesOn
  | cons character later =>
      rw [rest_next_of_cons behind, ne_eq, List.drop_eq_nil_iff, Nat.not_le] at goesOn
      have notLast : later ≠ [] := by
        rintro rfl
        exact Nat.not_lt_zero _ goesOn
      exact extended.next_of_tail_eq behind (Or.inl notLast)
        (Opening.tail_append_of_lt goesOn more)

theorem next_of_stray
    (ends : scan.next.1.kind = .endOfInput) (stray : scan.next.1.lexeme ≠ none) :
    longer.next.1 = scan.next.1 := by
  cases behind : scan.rest.drop (leading scan.rest).length with
  | nil => exact absurd (congrArg (·.1.lexeme) (next_of_nil behind)) stray
  | cons character later =>
      have unknown := ofChar_of_next_ends behind ends
      have notSlash := (stray_of_next_ends behind ends).1.notSlash
      have apart : ¬ ['/', '/'] <+: character :: more := by
        intro isComment
        exact notSlash (List.cons_prefix_cons.1 isComment).1.symm
      refine (extended.next_of_tail_eq behind (Or.inr apart) ?_).1
      rw [unknown]
      rfl

end Extended

/-- Behind the last token of a text only the end is read. -/
theorem tokens_ne_nil (scan : Scan) : scan.tokens.1 ≠ [] := by
  rw [tokens]
  split <;> exact List.cons_ne_nil _ _

theorem getLast?_tokens {scan : Scan} (goesOn : scan.next.1.kind ≠ .endOfInput) :
    scan.tokens.1.getLast? = scan.next.2.tokens.1.getLast? := by
  obtain ⟨first, others, shape⟩ := List.exists_cons_of_ne_nil (tokens_ne_nil scan.next.2)
  rw [tokens_of_ne goesOn, shape, List.getLast?_cons_cons]

namespace Extended

variable {more : List Char} {scan longer : Scan}

/-- A scan that ends at a stray character reads the same tokens in the longer text. -/
theorem tokens_eq_of_stray
    (extended : Extended more scan longer)
    (stray : ∀ last ∈ scan.tokens.1.getLast?, last.lexeme ≠ none) :
    longer.tokens.1 = scan.tokens.1 := by
  induction scan using Scan.induction_next generalizing longer with
  | ends scan ends =>
      have same := extended.next_of_stray ends (stray _ (by rw [tokens_of_ends ends]; rfl))
      rw [tokens_of_ends ends, tokens_of_next_ends same ends]
  | goesOn scan goesOn ih =>
      rw [getLast?_tokens goesOn] at stray
      have notEnded : scan.next.2.rest ≠ [] := by
        intro ended
        obtain ⟨last, alone, _, noLexeme⟩ := tokens_of_rest_eq_nil ended
        exact stray last (by rw [alone]; rfl) noLexeme
      obtain ⟨same, further⟩ := extended.next notEnded
      rw [tokens_of_ne goesOn, tokens_of_next same goesOn, ih further stray]

/-- In the longer text all tokens are read that have another token behind them. -/
theorem isPrefix_tokens (extended : Extended more scan longer) :
    (Token.beforeEnd scan.tokens.1).dropLast <+: longer.tokens.1 := by
  induction scan using Scan.induction_next generalizing longer with
  | ends scan ends =>
      rw [tokens_of_ends ends, Token.beforeEnd_of_ends ends]
      exact List.nil_prefix
  | goesOn scan goesOn ih =>
      rw [tokens_of_ne goesOn, Token.beforeEnd_cons goesOn]
      by_cases ended : scan.next.2.rest = []
      · -- This is the token that may be another one in the longer text, and it is not counted.
        obtain ⟨last, alone, isEnd, _⟩ := tokens_of_rest_eq_nil ended
        rw [alone, Token.beforeEnd_of_ends isEnd]
        exact List.nil_prefix
      · obtain ⟨same, further⟩ := extended.next ended
        have later := ih further
        rw [tokens_of_next same goesOn]
        cases shape : Token.beforeEnd scan.next.2.tokens.1 with
        | nil => exact List.nil_prefix
        | cons second others =>
            rw [shape] at later
            exact (List.prefix_cons_inj _).2 later

end Extended

end Scan

/-! ## Source texts -/

namespace Token

open Scan

theorem complaints_of_ends {token : Token} (isEnd : token.kind = .endOfInput) :
    token.complaints = [] := by
  apply complaints_of_ne
  rw [isEnd]
  decide

/-- Nothing is recorded with the token that ends a source text. -/
theorem diagnostics_beforeEnd (source : String) :
    (Scan.ofText source).tokens.2.diagnostics =
      (beforeEnd (ofSource source)).flatMap complaints := by
  obtain ⟨last, split, isEnd⟩ := ofSource_eq_append_last source
  have whole := congrArg (List.flatMap complaints) split
  rw [diagnostics_ofSource, whole, List.flatMap_append, List.flatMap_singleton,
    complaints_of_ends isEnd, List.append_nil]

/-- Text that is added behind a source text changes nothing if a character ended the input there.
Otherwise it can change the last token in front of the end only: all tokens before it, and what
was recorded with them, are the same. -/
theorem ofSource_append (source more : String) :
    ∃ tokens last,
      ofSource source = tokens ++ [last] ∧
        last.kind = .endOfInput ∧
        (Scan.ofText source).tokens.2.diagnostics = tokens.flatMap complaints ∧
        (last.lexeme ≠ none →
          ofSource (source ++ more) = ofSource source ∧
            (Scan.ofText (source ++ more)).tokens.2.diagnostics =
              (Scan.ofText source).tokens.2.diagnostics) ∧
        (last.lexeme = none →
          tokens.dropLast <+: ofSource (source ++ more) ∧
            tokens.dropLast.flatMap complaints <+:
              (Scan.ofText (source ++ more)).tokens.2.diagnostics) := by
  obtain ⟨last, split, isEnd⟩ := ofSource_eq_append_last source
  have extended :
      Extended more.toList (Scan.ofText source) (Scan.ofText (source ++ more)) :=
    ⟨String.toList_append, rfl⟩
  refine ⟨_, last, split, isEnd, diagnostics_beforeEnd source, ?_, ?_⟩
  · intro stray
    have same : ofSource (source ++ more) = ofSource source := by
      apply extended.tokens_eq_of_stray
      intro other member
      have isLast : (ofSource source).getLast? = some last := by
        rw [split]
        exact List.getLast?_concat
      have equality : some last = some other := isLast.symm.trans member
      rw [← Option.some.inj equality]
      exact stray
    rw [diagnostics_ofSource, diagnostics_ofSource, same]
    exact ⟨rfl, rfl⟩
  · intro _
    have isPrefix : (beforeEnd (ofSource source)).dropLast <+: ofSource (source ++ more) :=
      extended.isPrefix_tokens
    rw [diagnostics_ofSource]
    refine ⟨isPrefix, ?_⟩
    obtain ⟨others, whole⟩ := isPrefix
    exact ⟨others.flatMap complaints, by rw [← List.flatMap_append, whole]⟩

/-- An equals sign becomes part of the operator at the end of one text, and is not read at all
behind the stray character of the other. -/
theorem ofSource_append_equals :
    [⟨.number, some "1²", .nil, 1⟩] <+: ofSource ("1²<" ++ "=") ∧
      [⟨1, .invalidNumber "1²"⟩] <+:
        (Scan.ofText ("1²<" ++ "=")).tokens.2.diagnostics ∧
      ofSource ("+#" ++ "=") = ofSource "+#" := by
  have openTokens :
      ofSource "1²<" =
        [⟨.number, some "1²", .nil, 1⟩, ⟨.less, some "<", .nil, 1⟩] ++
          [⟨.endOfInput, none, .nil, 1⟩] := by
    decide +kernel
  have strayTokens :
      ofSource "+#" = [⟨.plus, some "+", .nil, 1⟩] ++ [⟨.endOfInput, some "#", .nil, 1⟩] := by
    decide +kernel
  obtain ⟨tokens, last, split, _, _, _, ended⟩ := ofSource_append "1²<" "="
  obtain ⟨sameTokens, sameLast⟩ := List.append_inj' (split.symm.trans openTokens) rfl
  obtain rfl := (List.cons.inj sameLast).1
  obtain ⟨isPrefix, complained⟩ := ended rfl
  rw [sameTokens] at isPrefix complained
  obtain ⟨_, last, split, _, _, cut, _⟩ := ofSource_append "+#" "="
  obtain ⟨_, sameLast⟩ := List.append_inj' (split.symm.trans strayTokens) rfl
  obtain rfl := (List.cons.inj sameLast).1
  exact ⟨isPrefix, complained, (cut nofun).1⟩

end Token

end LoxSyntax
