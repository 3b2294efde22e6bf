import LoxSyntax.Proofs.Report
import LoxSyntax.Proofs.Scan.LineCount
import LoxSyntax.Proofs.Scan.Spacing

/-!
# Line ends of two characters

A carriage return in front of a line feed is a blank, and it ends a comment like the line feed
does.  No token goes on with it but a string.  So a scan does not notice where it is left out,
unless inside a string: in texts that differ in such line ends only, the same tokens stand on the
same lines (`Aligned.tokens_eq`).
-/

namespace LoxSyntax

open Layout

/-- Line feeds in place of all pairs of a carriage return and a line feed. -/
def Text.shortenLineEnds : List Char → List Char
  | [] => []
  | '\r' :: '\n' :: rest => '\n' :: shortenLineEnds rest
  | character :: rest => character :: shortenLineEnds rest

/-- `Shortened text shorter` when `shorter` has line feeds in place of some pairs of a carriage
return and a line feed. -/
inductive Shortened : List Char → List Char → Prop
  | nil : Shortened [] []
  | lineEnd {text shorter : List Char} :
      Shortened text shorter →
      Shortened ('\r' :: '\n' :: text) ('\n' :: shorter)
  | cons {text shorter : List Char} (character : Char) :
      Shortened text shorter →
      Shortened (character :: text) (character :: shorter)

namespace Shortened

theorem shortenLineEnds (text : List Char) : Shortened text (Text.shortenLineEnds text) := by
  fun_induction Text.shortenLineEnds text with
  | case1 => exact .nil
  | case2 rest ih => exact .lineEnd ih
  | case3 character rest _ ih => exact .cons character ih

variable {text shorter : List Char}

theorem count_lineFeed (shortened : Shortened text shorter) :
    shorter.count '\n' = text.count '\n' := by
  induction shortened with
  | nil => rfl
  | lineEnd _ ih => rw [List.count_cons_self, List.count_cons_of_ne (by decide),
      List.count_cons_self, ih]
  | cons character _ ih => rw [List.count_cons, List.count_cons, ih]

/-- The first characters are the same but at a line end. -/
theorem head?_eq_some_iff
    (shortened : Shortened text shorter) {character : Char} (inLine : ¬ endsLine character) :
    shorter.head? = some character ↔ text.head? = some character := by
  cases shortened with
  | nil | cons => exact Iff.rfl
  | lineEnd =>
      simp only [List.head?_cons, Option.some.injEq]
      constructor
      · rintro rfl
        exact absurd rfl inLine
      · rintro rfl
        exact absurd rfl inLine

theorem eq_nil (shortened : Shortened [] shorter) : shorter = [] := by
  cases shortened
  rfl

theorem exists_cons
    {character : Char} (shortened : Shortened (character :: text) shorter)
    (notReturn : character ≠ '\r') :
    ∃ rest, shorter = character :: rest ∧ Shortened text rest := by
  cases shortened with
  | lineEnd => exact absurd rfl notReturn
  | cons _ shortened => exact ⟨_, rfl, shortened⟩

/-- What stands in front without a carriage return is the same. -/
theorem exists_append
    {run later : List Char} (shortened : Shortened (run ++ later) shorter)
    (noReturn : '\r' ∉ run) :
    ∃ rest, shorter = run ++ rest ∧ Shortened later rest := by
  induction run generalizing shorter with
  | nil => exact ⟨shorter, rfl, shortened⟩
  | cons character run ih =>
      have notReturn := (List.ne_of_not_mem_cons noReturn).symm
      obtain ⟨others, rfl, further⟩ := shortened.exists_cons notReturn
      obtain ⟨rest, rfl, behind⟩ := ih further (List.not_mem_of_not_mem_cons noReturn)
      exact ⟨rest, rfl, behind⟩

/-- A run of characters that cannot end a line is the same. -/
theorem takeWhile_eq
    (shortened : Shortened text shorter) {test : Char → Bool}
    (inLine : ∀ character, endsLine character → ¬ test character) :
    shorter.takeWhile test = text.takeWhile test := by
  induction shortened with
  | nil => rfl
  | lineEnd =>
      rw [List.takeWhile_cons_of_neg (inLine '\n' rfl),
        List.takeWhile_cons_of_neg (inLine '\r' rfl)]
  | cons character _ ih => rw [List.takeWhile_cons, List.takeWhile_cons, ih]

end Shortened

namespace Layout

theorem run_of_endsLine
    {character : Char} (ends : endsLine character) (inComment : Bool) (rest : List Char) :
    run inComment (character :: rest) = character :: run false rest := by
  cases inComment with
  | false => exact run_false_of_blank (isBlank_of_endsLine ends) rest
  | true =>
      rw [run, ends]
      rfl

/-- Outside of comments the first character is a blank, or opens a comment, or is no layout. -/
theorem run_false_cons (character : Char) (rest : List Char) :
    run false (character :: rest) =
      if Text.isBlank character then character :: run false rest
      else if character = '/' ∧ rest.head? = some '/' then character :: run true rest
      else [] := by
  by_cases isBlank : Text.isBlank character
  · rw [if_pos isBlank, run_false_of_blank isBlank]
  rw [if_neg isBlank]
  by_cases comment : character = '/' ∧ rest.head? = some '/'
  · rw [if_pos comment]
    obtain ⟨rfl, second⟩ := comment
    obtain ⟨later, rfl⟩ := List.head?_eq_some_iff.1 second
    rfl
  · rw [if_neg comment]
    apply leading_eq_nil isBlank
    rintro ⟨later, isComment⟩
    obtain ⟨rfl, second⟩ := List.cons.inj isComment
    exact comment ⟨rfl, by rw [← second]; rfl⟩

end Layout

namespace Shortened

variable {text shorter : List Char}

/-- The layout in front and what is behind it differ in line ends only. -/
theorem run (shortened : Shortened text shorter) (inComment : Bool) :
    Shortened (Layout.run inComment text) (Layout.run inComment shorter) ∧
      Shortened (text.drop (Layout.run inComment text).length)
        (shorter.drop (Layout.run inComment shorter).length) := by
  induction shortened generalizing inComment with
  | nil =>
      rw [Layout.run]
      exact ⟨.nil, .nil⟩
  | lineEnd shortened ih =>
      obtain ⟨layout, behind⟩ := ih false
      rw [run_of_endsLine rfl, run_of_endsLine rfl, run_of_endsLine rfl]
      exact ⟨.lineEnd layout, behind⟩
  | cons character shortened ih =>
      cases inComment with
      | true =>
          obtain ⟨layout, behind⟩ := ih (!endsLine character)
          exact ⟨.cons character layout, behind⟩
      | false =>
          have slash := shortened.head?_eq_some_iff (by decide : ¬ endsLine '/')
          simp only [run_false_cons, slash]
          split
          · obtain ⟨layout, behind⟩ := ih false
            exact ⟨.cons character layout, behind⟩
          split
          · obtain ⟨layout, behind⟩ := ih true
            exact ⟨.cons character layout, behind⟩
          · exact ⟨.nil, .cons character shortened⟩

end Shortened

/-- Only a string goes on behind a character that ends a line. -/
theorem Opening.not_mem_tail
    {opening : Opening} (notQuote : opening ≠ .quote) {character : Char}
    (ends : endsLine character) (rest : List Char) :
    character ∉ opening.tail rest := by
  have isBlank := isBlank_of_endsLine ends
  have notDigit := Text.not_isDigit_of_isBlank isBlank
  intro member
  cases opening with
  | mark | slash | unknown => exact absurd member List.not_mem_nil
  | pair double single =>
      rw [tail] at member
      split at member
      · rw [List.mem_singleton.1 member] at isBlank
        exact absurd isBlank (by decide)
      · exact absurd member List.not_mem_nil
  | quote => exact notQuote rfl
  | digit =>
      obtain ⟨digits, later, all, rfl, ⟨decimals, rfl⟩ | short⟩ := exists_digits rest
      · rw [tail_digit_append all] at member
        rcases List.mem_append.1 member with whole | behind
        · exact notDigit (all _ whole)
        rcases List.mem_cons.1 behind with rfl | decimal
        · exact absurd isBlank (by decide)
        · exact notDigit (List.mem_takeWhile_imp decimal)
      · rw [short] at member
        exact notDigit (all _ member)
  | letter => exact Scan.not_isWordCharacter_of_isBlank isBlank (List.mem_takeWhile_imp member)

namespace Shortened

variable {text shorter : List Char}

theorem tail_digit_eq (shortened : Shortened text shorter) :
    Opening.digit.tail shorter = Opening.digit.tail text := by
  have inLine (character : Char) (ends : endsLine character) : ¬ Text.isDigit character :=
    Text.not_isDigit_of_isBlank (isBlank_of_endsLine ends)
  have split := takeWhile_append_drop Text.isDigit text
  have digits : ∀ digit ∈ text.takeWhile Text.isDigit, Text.isDigit digit :=
    fun _ member => List.mem_takeWhile_imp member
  have run := shortened.takeWhile_eq inLine
  rw [← split] at shortened
  obtain ⟨later, rfl, behind⟩ :=
    shortened.exists_append fun member => inLine '\r' rfl (digits _ member)
  by_cases point : ∃ decimals,
      text.drop (text.takeWhile Text.isDigit).length = '.' :: decimals
  · obtain ⟨decimals, atPoint⟩ := point
    rw [atPoint] at split behind
    obtain ⟨rest, rfl, further⟩ := behind.exists_cons (by decide)
    rw [Opening.tail_digit_append digits, further.takeWhile_eq inLine,
      ← Opening.tail_digit_append digits, split]
  · have noPoint := behind.head?_eq_some_iff (by decide : ¬ endsLine '.')
    rw [Opening.tail_digit_of_ne_point, Opening.tail_digit_of_ne_point, run]
    · intro decimals atPoint
      exact point ⟨decimals, atPoint⟩
    · intro decimals atPoint
      rw [run, List.drop_left] at atPoint
      rw [atPoint] at noPoint
      obtain ⟨others, equality⟩ := List.head?_eq_some_iff.1 (noPoint.1 rfl)
      exact point ⟨others, equality⟩

/-- The tail of a token is the same if there is no carriage return in it. -/
theorem tail_eq
    (shortened : Shortened text shorter) {opening : Opening}
    (noReturn : '\r' ∉ opening.tail text) :
    opening.tail shorter = opening.tail text := by
  cases opening with
  | mark | slash | unknown => rfl
  | pair double single =>
      have equals := shortened.head?_eq_some_iff (by decide : ¬ endsLine '=')
      simp only [Opening.tail, List.take_one, Option.toList_eq_singleton_iff, equals]
  | quote =>
      obtain ⟨body, noQuote, rfl | ⟨later, rfl⟩⟩ := Opening.exists_body text
      · rw [Opening.tail_quote_of_not_mem noQuote] at noReturn
        rw [← List.append_nil text] at shortened
        obtain ⟨rest, rfl, nothing⟩ := shortened.exists_append noReturn
        rw [nothing.eq_nil, List.append_nil]
      · rw [Opening.tail_quote_append noQuote] at noReturn ⊢
        rw [List.append_cons] at shortened
        obtain ⟨rest, rfl, _⟩ := shortened.exists_append noReturn
        rw [← List.append_cons]
        exact Opening.tail_quote_append noQuote rest
  | digit => exact shortened.tail_digit_eq
  | letter =>
      exact shortened.takeWhile_eq fun character ends =>
        Scan.not_isWordCharacter_of_isBlank (isBlank_of_endsLine ends)

end Shortened

/-! ## Scans -/

namespace Scan

/-- `Aligned scan other` when `other` has the same in front of it as `scan` but for some line ends,
on the same line. -/
structure Aligned (scan other : Scan) : Prop where
  rest : Shortened scan.rest other.rest
  line : other.line = scan.line

namespace Aligned

variable {scan other : Scan}

theorem skipLayout (aligned : Aligned scan other) :
    Aligned scan.skipLayout.setMark other.skipLayout.setMark := by
  obtain ⟨layout, behind⟩ := aligned.rest.run false
  refine ⟨behind, ?_⟩
  have taken (text : List Char) : text.take (leading text).length = leading text :=
    (List.prefix_iff_eq_take.1 (run_isPrefix false text)).symm
  simp only [Scan.skipLayout, Scan.setMark, Scan.forward, taken, aligned.line]
  rw [leading, layout.count_lineFeed]
  rfl

/-- Characters without a carriage return are read from both texts. -/
theorem forward
    (aligned : Aligned scan other) {run : List Char} (isPrefix : run <+: scan.rest)
    (noReturn : '\r' ∉ run) :
    Aligned (scan.forward run.length) (other.forward run.length) := by
  obtain ⟨later, split⟩ := isPrefix
  have shortened := aligned.rest
  rw [← split] at shortened
  obtain ⟨rest, otherSplit, behind⟩ := shortened.exists_append noReturn
  refine ⟨?_, ?_⟩
  · simp only [Scan.forward, ← split, otherSplit, List.drop_left]
    exact behind
  · simp only [Scan.forward, ← split, otherSplit, List.take_left, aligned.line]

/-- The same token is read, unless it is a string with a carriage return. -/
theorem next
    (aligned : Aligned scan other)
    (noReturn : scan.next.1.kind = .string → '\r' ∉ scan.next.1.spelling) :
    other.next.1 = scan.next.1 ∧ Aligned scan.next.2 other.next.2 := by
  have started := aligned.skipLayout
  cases behind : scan.rest.drop (leading scan.rest).length with
  | nil =>
      have ended : scan.skipLayout.setMark.rest = [] := behind
      have otherBehind : other.rest.drop (leading other.rest).length = [] := by
        have nothing := started.rest
        rw [ended] at nothing
        exact nothing.eq_nil
      rw [next_of_nil behind, next_of_nil otherBehind, started.line]
      exact ⟨rfl, started⟩
  | cons character later =>
      have ahead : scan.skipLayout.setMark.rest = character :: later := behind
      have notReturn : character ≠ '\r' := by
        rintro rfl
        exact (not_layout_of_behind behind).1 (by decide)
      have shortened := started.rest
      rw [ahead] at shortened
      obtain ⟨otherLater, otherAhead, further⟩ := shortened.exists_cons notReturn
      have otherBehind :
          other.rest.drop (leading other.rest).length = character :: otherLater :=
        otherAhead
      have noReturnTail : '\r' ∉ (Opening.ofChar character).tail later := by
        by_cases isQuote : Opening.ofChar character = .quote
        · obtain ⟨kind, lexeme, _⟩ := next_of_cons behind
          have inString := noReturn (by rw [kind, isQuote]; rfl)
          rw [Token.spelling, lexeme, Option.getD_some, String.toList_ofList] at inString
          exact List.not_mem_of_not_mem_cons inString
        · exact Opening.not_mem_tail isQuote rfl later
      have inside :
          character :: (Opening.ofChar character).tail later <+: scan.skipLayout.setMark.rest := by
        rw [ahead]
        exact (List.prefix_cons_inj character).2 (Opening.tail_isPrefix _ later)
      obtain ⟨rest, line⟩ := started.forward inside
        (List.not_mem_cons_of_ne_of_not_mem notReturn.symm noReturnTail)
      rw [next_eq behind, next_eq otherBehind, further.tail_eq noReturnTail]
      exact ⟨by rw [line], rest, line⟩

theorem tokens_eq
    (aligned : Aligned scan other)
    (noReturn : ∀ token ∈ scan.tokens.1, token.kind = .string → '\r' ∉ token.spelling) :
    other.tokens.1 = scan.tokens.1 := by
  induction scan using induction_next generalizing other with
  | ends scan ends =>
      rw [tokens_of_ends ends] at noReturn ⊢
      exact tokens_of_next_ends (aligned.next (noReturn _ List.mem_cons_self)).1 ends
  | goesOn scan goesOn ih =>
      rw [tokens_of_ne goesOn] at noReturn ⊢
      obtain ⟨same, further⟩ := aligned.next (noReturn _ List.mem_cons_self)
      rw [tokens_of_next same goesOn,
        ih further fun token member => noReturn token (List.mem_cons_of_mem _ member)]

end Aligned

end Scan

/-- Where no string has a carriage return in it, the report on a source text does not depend on
whether its lines end with a line feed or with a carriage return and a line feed: tokens and tree
are the same, on the same lines, and what is wrong is the same. -/
theorem Report.ofSource_shortenLineEnds
    {source : String}
    (noReturn : ∀ token ∈ Token.ofSource source,
      token.kind = .string → '\r' ∉ token.spelling) :
    ofSource (String.ofList (Text.shortenLineEnds source.toList)) = ofSource source := by
  have aligned :
      Scan.Aligned (Scan.ofText source)
        (Scan.ofText (String.ofList (Text.shortenLineEnds source.toList))) := by
    refine ⟨?_, rfl⟩
    simp only [Scan.ofText, String.toList_ofList]
    exact .shortenLineEnds source.toList
  have tokens : Token.ofSource _ = Token.ofSource source := aligned.tokens_eq noReturn
  have diagnostics := Token.diagnostics_ofSource source
  rw [← tokens, ← Token.diagnostics_ofSource] at diagnostics
  rw [Token.ofSource, Token.ofSource] at tokens
  simp only [ofSource, ofSourceWith, tokens, diagnostics]

/-- A comment and a string with a line feed in it stand in front of a number that is not a numeral,
and a stray character in front of a string with a carriage return that is not read. -/
theorem Report.ofSource_shortenLineEnds_comment :
    let source := "// one\r\n\"a\nb\"\r\r\n==1²\r\n@\"\r\n"
    (∀ token ∈ Token.ofSource source, token.kind = .string → '\r' ∉ token.spelling) ∧
      (ofSource "// one\n\"a\nb\"\r\n==1²\n@\"\n").errors = (ofSource source).errors ∧
      (ofSource source).errors = ["line 4: invalid number literal '1²'"] := by
  intro source
  have tokens :
      Token.ofSource source =
        [⟨.string, some "\"a\nb\"", .string "a\nb", 3⟩, ⟨.equalEqual, some "==", .nil, 4⟩,
          ⟨.number, some "1²", .nil, 4⟩, ⟨.endOfInput, some "@", .nil, 5⟩] := by
    decide +kernel
  have noReturn : ∀ token ∈ Token.ofSource source,
      token.kind = .string → '\r' ∉ token.spelling := by
    rw [tokens]
    decide
  have same := ofSource_shortenLineEnds noReturn
  have shorter :
      String.ofList (Text.shortenLineEnds source.toList) =
        "// one\n\"a\nb\"\r\n==1²\n@\"\n" := by
    decide
  rw [shorter] at same
  refine ⟨noReturn, by rw [same], ?_⟩
  decide +kernel

end LoxSyntax
