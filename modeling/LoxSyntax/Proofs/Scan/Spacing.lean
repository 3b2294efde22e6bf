import LoxSyntax.Proofs.Scan.Yield

/-!
# Spacing

`Spaced lexemes text` says that `text` consists of the lexemes, with fillers in front of them,
between them and behind them.  A filler is made of blanks and comments.  Behind a lexeme it
begins with a blank, so that a slash does not begin a comment with it.

Where every string is closed, a spaced text is read as its lexemes (`Spaced.yields`).
-/

namespace LoxSyntax

open Layout

namespace Layout

theorem run_false_of_blank
    {character : Char} (isBlank : Text.isBlank character) (rest : List Char) :
    run false (character :: rest) = character :: run false rest := by
  have noComment : ∀ later, character = '/' → rest = '/' :: later → False := by
    rintro later rfl _
    exact absurd isBlank (by decide)
  rw [run, if_pos isBlank]
  exact noComment

/-- Where a line ends, it does not matter whether a comment was open. -/
theorem run_true_of_endsLine
    {text : List Char}
    (ends : ∀ next later, text = next :: later → next = '\n' ∨ next = '\r') :
    run true text = run false text := by
  cases text with
  | nil => rfl
  | cons next later =>
      have endsHere := endsLine_iff.2 (ends next later rfl)
      rw [run_false_of_blank (isBlank_of_endsLine endsHere), run, endsHere]
      rfl

theorem run_true_append
    {body rest : List Char}
    (inside : ∀ character ∈ body, character ≠ '\n' ∧ character ≠ '\r') :
    run true (body ++ rest) = body ++ run true rest := by
  induction body with
  | nil => rfl
  | cons character body ih =>
      obtain ⟨here, later⟩ := List.forall_mem_cons.1 inside
      rw [List.cons_append, run, endsLine_eq_false_iff.2 here, Bool.not_false, ih later]
      rfl

theorem leading_eq_nil
    {next : Char} {later : List Char} (notBlank : ¬ Text.isBlank next)
    (noComment : ¬ ['/', '/'] <+: next :: later) :
    leading (next :: later) = [] := by
  rw [leading, run, if_neg notBlank]
  rintro further rfl rfl
  exact noComment ⟨further, rfl⟩

/-- A gap in front of something that is not layout is all the layout there. -/
theorem leading_append_of_gap
    {after gap : List Char} (isGap : Gap after gap) (noLayout : leading after = []) :
    leading (gap ++ after) = gap := by
  induction isGap with
  | nil => exact noLayout
  | @blank character gap isBlank _ ih =>
      exact (run_false_of_blank isBlank (gap ++ after)).trans (congrArg (character :: ·) ih)
  | @comment body gap inside ends _ ih =>
      have comment :
          leading ('/' :: '/' :: (body ++ gap) ++ after) =
            '/' :: '/' :: run true (body ++ (gap ++ after)) := by
        rw [← List.append_assoc]
        rfl
      have rest : run false (gap ++ after) = gap := ih
      rw [comment, run_true_append inside, run_true_of_endsLine ends, rest]

end Layout

namespace Text

theorem not_isDigit_of_isBlank {character : Char} (isBlank : isBlank character) :
    ¬ isDigit character :=
  not_inRanges_of_apart (by decide +kernel) isBlank

theorem not_isNumeric_of_isBlank {character : Char} (isBlank : isBlank character) :
    ¬ isNumeric character :=
  not_inRanges_of_apart (by decide +kernel) isBlank

theorem not_isLetter_of_isBlank {character : Char} (isBlank : isBlank character) :
    ¬ isLetter character :=
  not_inRanges_of_apart (by decide +kernel) isBlank

end Text

theorem Scan.not_isWordCharacter_of_isBlank
    {character : Char} (isBlank : Text.isBlank character) :
    ¬ isWordCharacter character := by
  have notDash : character ≠ '-' := by
    rintro rfl
    exact absurd isBlank (by decide)
  simp [isWordCharacter, Text.not_isLetter_of_isBlank isBlank,
    Text.not_isNumeric_of_isBlank isBlank, notDash]

/-- No token begins with a blank. -/
theorem Opening.ofChar_of_isBlank {character : Char} (isBlank : Text.isBlank character) :
    ofChar character = .unknown := by
  have noMark :
      (TokenKind.marks.map Prod.fst ++ TokenKind.pairs.map Prod.fst ++ ['/', '"']).all
        fun mark => !Text.isBlank mark :=
    rfl
  have apart :
      character ∉ TokenKind.marks.map Prod.fst ++ TokenKind.pairs.map Prod.fst ++ ['/', '"'] := by
    intro member
    have notBlank := List.all_eq_true.1 noMark character member
    simp [isBlank] at notBlank
  simp only [List.mem_append, List.mem_cons, List.not_mem_nil, or_false, not_or] at apart
  obtain ⟨⟨notMark, notPair⟩, notSlash, notQuote⟩ := apart
  exact ofChar_eq_iff.2 ⟨notMark, notPair, notSlash, notQuote,
    Text.not_isDigit_of_isBlank isBlank, Text.not_isLetter_of_isBlank isBlank⟩

/-- Whether a text is empty or begins with a blank, so that it can stand behind any lexeme. -/
def StartsBlank (text : List Char) : Prop :=
  ∀ next later, text = next :: later → Text.isBlank next

namespace StartsBlank

variable {text : List Char}

theorem nil : StartsBlank [] :=
  nofun

theorem cons {character : Char} (isBlank : Text.isBlank character) (later : List Char) :
    StartsBlank (character :: later) := by
  intro next _ equality
  rw [← (List.cons.inj equality).1]
  exact isBlank

theorem ne_cons
    (startsBlank : StartsBlank text) {character : Char} (notBlank : ¬ Text.isBlank character)
    (later : List Char) :
    text ≠ character :: later :=
  fun equality => notBlank (startsBlank character later equality)

/-- A run of characters that are no blanks ends at the text. -/
theorem takeWhile_append
    (startsBlank : StartsBlank text) {test : Char → Bool} {run : List Char}
    (all : ∀ character ∈ run, test character)
    (noBlank : ∀ {character}, Text.isBlank character → ¬ test character) :
    (run ++ text).takeWhile test = run := by
  cases text with
  | nil => rw [List.append_nil, List.takeWhile_eq_self_iff.2 all]
  | cons next later =>
      exact takeWhile_append_cons all (noBlank (startsBlank next later rfl))

end StartsBlank

/-- Whether a lexeme, if it is one of a string, has a closing quote. -/
def ClosedLexeme (kind : TokenKind) (lexeme : List Char) : Prop :=
  kind = .string → 2 ≤ lexeme.length ∧ lexeme.getLast? = some '"'

instance (kind : TokenKind) (lexeme : List Char) : Decidable (ClosedLexeme kind lexeme) :=
  inferInstanceAs (Decidable (_ → _))

theorem not_closedLexeme_of_not_mem {body : List Char} (noQuote : '"' ∉ body) :
    ¬ ClosedLexeme .string ('"' :: body) := by
  intro closed
  obtain ⟨long, last⟩ := closed rfl
  cases body with
  | nil => simp at long
  | cons first others =>
      rw [List.getLast?_cons_cons] at last
      exact noQuote (List.mem_of_getLast? last)

/-- A lexeme is read up to its end where a blank follows. -/
theorem Lexeme.tail_append
    {kind : TokenKind} {character : Char} {others behind : List Char}
    (isLexeme : Lexeme kind (character :: others))
    (closed : ClosedLexeme kind (character :: others)) (startsBlank : StartsBlank behind) :
    (Opening.ofChar character).tail (others ++ behind) = others := by
  cases isLexeme with
  | @mark _ kind member =>
      have opens : Opening.ofChar character = .mark kind := Opening.ofChar_eq_iff.2 member
      rw [opens]
      rfl
  | @single _ double _ member =>
      have opens : Opening.ofChar character = .pair double kind :=
        Opening.ofChar_eq_iff.2 member
      rw [opens, Opening.tail, if_neg]
      intro equals
      cases behind with
      | nil => simp at equals
      | cons next later =>
          obtain rfl : next = '=' := by simpa using equals
          exact startsBlank.ne_cons (by decide) later rfl
  | @double _ _ single member =>
      have opens : Opening.ofChar character = .pair kind single :=
        Opening.ofChar_eq_iff.2 member
      rw [opens]
      rfl
  | slash => rfl
  | unclosedString noQuote => exact absurd closed (not_closedLexeme_of_not_mem noQuote)
  | @closedString body noQuote =>
      have opens : Opening.ofChar '"' = .quote := rfl
      rw [opens, List.append_assoc, List.singleton_append, Opening.tail_quote_append noQuote]
  | whole isDigit digits =>
      have opens : Opening.ofChar character = .digit := Opening.ofChar_eq_iff.2 isDigit
      have run : (others ++ behind).takeWhile Text.isDigit = others :=
        startsBlank.takeWhile_append digits Text.not_isDigit_of_isBlank
      rw [opens, Opening.tail_digit_of_ne_point, run]
      intro decimals
      rw [run, List.drop_left]
      exact startsBlank.ne_cons (by decide) decimals
  | @fraction _ digits decimals isDigit allDigits allDecimals =>
      have opens : Opening.ofChar character = .digit := Opening.ofChar_eq_iff.2 isDigit
      rw [opens, List.append_assoc, List.cons_append, Opening.tail_digit_append allDigits,
        startsBlank.takeWhile_append allDecimals Text.not_isDigit_of_isBlank]
  | word isLetter areWord =>
      have opens : Opening.ofChar character = .letter := Opening.ofChar_eq_iff.2 isLetter
      rw [opens]
      exact startsBlank.takeWhile_append
        (fun _ member => Scan.isWordCharacter_iff.2 (areWord _ member))
        Scan.not_isWordCharacter_of_isBlank

/-- No layout begins where a lexeme does. -/
theorem Lexeme.leading_append
    {kind : TokenKind} {lexeme behind : List Char} (isLexeme : Lexeme kind lexeme)
    (closed : ClosedLexeme kind lexeme) (startsBlank : StartsBlank behind) :
    leading (lexeme ++ behind) = [] := by
  obtain ⟨character, others, rfl⟩ := isLexeme.exists_cons
  refine leading_eq_nil ?_ ?_
  · intro isBlank
    exact isLexeme.ofChar_ne_unknown (Opening.ofChar_of_isBlank isBlank)
  · intro isComment
    obtain ⟨rfl, slash⟩ := List.cons_prefix_cons.1 isComment
    -- A slash takes no further character, so that the second one would stand behind it.
    have alone : [] = others := isLexeme.tail_append closed startsBlank
    subst alone
    obtain ⟨later, equality⟩ := slash
    exact startsBlank.ne_cons (by decide) later equality.symm

/-! ## Spaced lexemes -/

/-- `Filler text` when `text` consists of blanks and of comments with their line feeds. -/
inductive Filler : List Char → Prop
  | nil : Filler []
  | blank {character : Char} {text : List Char} :
      Text.isBlank character →
      Filler text →
      Filler (character :: text)
  | comment {body text : List Char} :
      (∀ character ∈ body, character ≠ '\n' ∧ character ≠ '\r') →
      Filler text →
      Filler ('/' :: '/' :: (body ++ '\n' :: text))

/-- A filler is a gap in front of anything. -/
theorem Filler.gap {text : List Char} (filler : Filler text) (after : List Char) :
    Gap after text := by
  induction filler with
  | nil => exact .nil
  | blank isBlank _ ih => exact .blank isBlank ih
  | comment inside _ ih =>
      refine .comment inside ?_ (.blank (by decide) ih)
      intro next later equality
      exact .inl (List.cons.inj equality).1.symm

/-- `Followed lexemes text` when `text` consists of the lexemes with a filler behind each of
them, which begins with a blank and may be empty behind the last lexeme only. -/
inductive Followed : List (List Char) → List Char → Prop
  | nil : Followed [] []
  | cons {lexeme gap rest : List Char} {lexemes : List (List Char)} :
      Filler gap →
      StartsBlank gap →
      (lexemes ≠ [] → gap ≠ []) →
      Followed lexemes rest →
      Followed (lexeme :: lexemes) (lexeme ++ (gap ++ rest))

/-- `Spaced lexemes text` when `text` consists of a filler and of the lexemes with fillers
behind them. -/
def Spaced (lexemes : List (List Char)) (text : List Char) : Prop :=
  ∃ front rest, text = front ++ rest ∧ Filler front ∧ Followed lexemes rest

theorem Followed.startsBlank_append
    {lexemes : List (List Char)} {gap rest : List Char} (followed : Followed lexemes rest)
    (startsBlank : StartsBlank gap) (separates : lexemes ≠ [] → gap ≠ []) :
    StartsBlank (gap ++ rest) := by
  intro next later equality
  cases gap with
  | cons first others =>
      exact StartsBlank.cons (startsBlank first others rfl) (others ++ rest) next later equality
  | nil =>
      cases followed with
      | nil => exact nomatch equality
      | cons => exact absurd rfl (separates (List.cons_ne_nil _ _))

/-- Behind a filler a scan reads lexemes that are followed by fillers. -/
theorem Followed.yields
    {lexemes : List (List Char)} {rest : List Char} (followed : Followed lexemes rest)
    (areLexemes : ∀ lexeme ∈ lexemes, ∃ kind, Lexeme kind lexeme ∧ ClosedLexeme kind lexeme)
    {front : List Char} (filler : Filler front) {scan : Scan} (ahead : scan.rest = front ++ rest) :
    Yields scan lexemes := by
  induction followed generalizing front scan with
  | nil =>
      have behind : scan.rest.drop (leading scan.rest).length = [] := by
        rw [ahead, leading_append_of_gap (filler.gap []) rfl, List.drop_left]
      exact .nil (congrArg (·.1.kind) (Scan.next_of_nil behind))
  | @cons lexeme gap rest lexemes gapFiller startsBlank separates later ih =>
      obtain ⟨kind, isLexeme, closed⟩ := areLexemes lexeme List.mem_cons_self
      have apart := later.startsBlank_append startsBlank separates
      have noLayout := isLexeme.leading_append closed apart
      obtain ⟨character, others, rfl⟩ := isLexeme.exists_cons
      have behind :
          scan.rest.drop (leading scan.rest).length = character :: (others ++ (gap ++ rest)) := by
        rw [ahead, leading_append_of_gap (filler.gap _) noLayout, List.drop_left]
        rfl
      have whole := isLexeme.tail_append closed apart
      have next : scan.next.2.rest = gap ++ rest := by
        rw [Scan.rest_next_of_cons behind, whole, List.drop_left]
      have step := Yields.cons behind isLexeme.ofChar_ne_unknown
        (ih (fun other member => areLexemes other (List.mem_cons_of_mem _ member)) gapFiller next)
      rw [whole] at step
      exact step

/-- A spaced text is read as its lexemes. -/
theorem Spaced.yields
    {lexemes : List (List Char)} {source : String} (spaced : Spaced lexemes source.toList)
    (areLexemes : ∀ lexeme ∈ lexemes, ∃ kind, Lexeme kind lexeme ∧ ClosedLexeme kind lexeme) :
    Yields (Scan.ofText source) lexemes := by
  obtain ⟨front, rest, equality, filler, followed⟩ := spaced
  exact followed.yields areLexemes filler equality

end LoxSyntax
