import LoxSyntax.Proofs.Nesting
import LoxSyntax.Proofs.Payloads
import LoxSyntax.Proofs.Scan.Spacing
import LoxSyntax.Proofs.Tree.Literals
import LoxSyntax.Proofs.WrittenNumbers

/-!
# Reading values back

A value reads back if the text that it is written as is a source text with a single literal,
which has that value.  The values of all literals of a source text do, but for two kinds of
numbers (`Report.literals_readBack_iff`): one that is infinite is written as a word, and one below
`0.0001` is written with an exponent, of which the scan knows nothing.
-/

namespace LoxSyntax

/-- A value whose written form is read as a literal token and nothing else, with that value. -/
structure Value.ReadsBack (value : Value) : Prop where
  success : (Report.ofSource value.written).success
  tokens : ∃ token last,
    (Report.ofSource value.written).tokens = [token, last] ∧
      token.kind ∈ TokenKind.literals ∧ last.kind = .endOfInput
  expr : (Report.ofSource value.written).expr = some (.literal value)

theorem reads_literal
    {token : Token} (isLiteral : token.kind ∈ TokenKind.literals)
    {next : Token} (ends : next.kind = .endOfInput) :
    Reads .expression Descent.maxNesting [token] next (.literal token.literalValue) [] := by
  have plain := TokenKind.plain_of_mem_literals isLiteral
  have derives : Derives .expression [token] (.literal token.literalValue) :=
    (derives_literal isLiteral).of_rank_le (Level.rank_expression_le _)
  apply derives.reads
  · rw [nesting_singleton plain.notOpening plain.notClosing]
    exact Nat.zero_le _
  · intro precedence _
    rw [ends]
    cases precedence <;> decide

/-- A text that is yielded as one lexeme of a literal has the report of that literal. -/
theorem Yields.ofSource_eq
    {source : String} {lexeme : List Char} (yields : Yields (Scan.ofText source) [lexeme])
    (isLiteral : (Token.ofLexeme 1 lexeme).kind ∈ TokenKind.literals)
    (noProblem : Problem.ofLexeme lexeme = []) :
    ∃ token last,
      Report.ofSource source =
          ⟨[token, last], some (.literal (Token.ofLexeme 1 lexeme).literalValue), [], none⟩ ∧
        token.kind ∈ TokenKind.literals ∧ last.kind = .endOfInput := by
  obtain ⟨last, split, ends⟩ := Token.ofSource_eq_append_last source
  obtain ⟨token, alone, isToken⟩ := List.map_eq_singleton_iff.1 yields.tokens
  have tokens : Token.ofSource source = [token, last] := by
    rw [split]
    exact congrArg (· ++ [last]) alone
  have kind : token.kind = (Token.ofLexeme 1 lexeme).kind := by
    rw [← isToken]
    rfl
  have value : token.literalValue = (Token.ofLexeme 1 lexeme).literalValue := by
    rw [← isToken]
    rfl
  have clean : (Scan.ofText source).tokens.2.diagnostics = [] := by
    have problems := yields.problems
    rw [List.flatMap_singleton, noProblem] at problems
    exact List.map_eq_nil_iff.1 problems
  rw [← kind] at isLiteral
  have parses := (reads_literal isLiteral ends).parses (by rw [ends]; decide) []
  rw [List.singleton_append, ← tokens] at parses
  refine ⟨token, last, ?_, isLiteral, ends⟩
  rw [parses.ofSource_eq, tokens, clean, value]
  rfl

theorem Value.readsBack_of_lexeme
    {value : Value} {kind : TokenKind} (isLexeme : Lexeme kind value.written.toList)
    (closed : ClosedLexeme kind value.written.toList)
    (isLiteral : kind ∈ TokenKind.literals)
    (noProblem : Problem.ofLexeme value.written.toList = [])
    (same : (Token.ofLexeme 1 value.written.toList).literalValue = value) :
    value.ReadsBack := by
  have spaced : Spaced [value.written.toList] value.written.toList :=
    ⟨[], _, (List.append_nil _).symm, .nil,
      .cons .nil .nil (fun notNil => absurd rfl notNil) .nil⟩
  have yields : Yields (Scan.ofText value.written) [value.written.toList] := by
    apply spaced.yields
    intro lexeme member
    rw [List.mem_singleton.1 member]
    exact ⟨kind, isLexeme, closed⟩
  rw [← isLexeme.kind_ofLexeme 1] at isLiteral
  obtain ⟨token, last, report, tokenIsLiteral, ends⟩ := yields.ofSource_eq isLiteral noProblem
  rw [same] at report
  refine ⟨?_, ⟨token, last, ?_, tokenIsLiteral, ends⟩, ?_⟩
  · rw [report]
    rfl
  · rw [report]
  · rw [report]

theorem Report.tokens_ofSource (source : String) :
    (ofSource source).tokens = Token.ofSource source := by
  obtain ⟨_, _, _, _, parses⟩ := exists_parses (ended_ofSource source)
  rw [parses.ofSource_eq]

/-- A text that is yielded as more than one lexeme is not a single literal. -/
theorem Value.not_readsBack_of_yields
    {value : Value} {first second : List Char} {later : List (List Char)}
    (yields : Yields (Scan.ofText value.written) (first :: second :: later)) :
    ¬ value.ReadsBack := by
  rintro ⟨_, ⟨token, last, tokens, _, ends⟩, _⟩
  have lengths := congrArg List.length yields.tokens
  have few : (Token.beforeEnd [token, last]).length < [token, last].length := by
    apply List.length_filter_lt_length_iff_exists.2
    exact ⟨last, by simp, by simp [ends]⟩
  rw [Report.tokens_ofSource, Token.ofSource] at tokens
  rw [tokens, List.length_map, List.length_map, List.length_cons, List.length_cons] at lengths
  simp only [List.length_cons, List.length_nil] at few
  omega

/-- No layout is skipped in front of a token. -/
theorem Scan.drop_leading
    {scan : Scan} {character : Char} {rest : List Char} (ahead : scan.rest = character :: rest)
    (known : Opening.ofChar character ≠ .unknown) (notSlash : character ≠ '/') :
    scan.rest.drop (Layout.leading scan.rest).length = character :: rest := by
  have noLayout : Layout.leading (character :: rest) = [] := by
    apply Layout.leading_eq_nil
    · intro isBlank
      exact known (Opening.ofChar_of_isBlank isBlank)
    · intro isComment
      exact notSlash (List.cons_prefix_cons.1 isComment).1.symm
  rw [ahead, noLayout]
  rfl

/-! ## Values that read back -/

theorem Problem.ofLexeme_eq_nil
    {lexeme : List Char} {number : Binary64} (found : Binary64.ofText? lexeme = some number) :
    Problem.ofLexeme lexeme = [] := by
  rw [Problem.ofLexeme]
  cases Opening.ofLexeme lexeme with
  | digit => rw [Opening.problems, found]
  | _ => rfl

namespace Value

theorem readsBack_nil : nil.ReadsBack := by
  refine ⟨by decide +kernel, ?_, by decide +kernel⟩
  exact ⟨⟨.nilWord, some "nil", .string "nil", 1⟩, ⟨.endOfInput, none, .nil, 1⟩,
    by decide +kernel, by decide, rfl⟩

theorem readsBack_bool (truth : Bool) : (bool truth).ReadsBack := by
  cases truth with
  | false =>
      refine ⟨by decide +kernel, ?_, by decide +kernel⟩
      exact ⟨⟨.falseWord, some "false", .bool false, 1⟩, ⟨.endOfInput, none, .nil, 1⟩,
        by decide +kernel, by decide, rfl⟩
  | true =>
      refine ⟨by decide +kernel, ?_, by decide +kernel⟩
      exact ⟨⟨.trueWord, some "true", .bool true, 1⟩, ⟨.endOfInput, none, .nil, 1⟩,
        by decide +kernel, by decide, rfl⟩

theorem literalValue_ofLexeme
    {kind : TokenKind} {lexeme : List Char} (isLexeme : Lexeme kind lexeme)
    (notNil : kind ≠ .nilWord) :
    (Token.ofLexeme 1 lexeme).literalValue = kind.payload lexeme := by
  rw [Token.literalValue, isLexeme.kind_ofLexeme, if_neg notNil, isLexeme.payload_eq]

/-- A text without quotes in it reads back, whatever else stands in it. -/
theorem readsBack_string {text : String} (noQuote : '"' ∉ text.toList) :
    (string text).ReadsBack := by
  have isLexeme : Lexeme .string (string text).written.toList := by
    rw [toList_written_string]
    exact .closedString noQuote
  apply readsBack_of_lexeme isLexeme
  · intro _
    rw [toList_written_string]
    refine ⟨by simp, ?_⟩
    rw [← List.cons_append, List.getLast?_concat]
  · decide
  · rw [toList_written_string]
    rfl
  · rw [literalValue_ofLexeme isLexeme (by decide), toList_written_string, TokenKind.payload,
      List.drop_one, List.tail_cons, Opening.takeWhile_body noQuote, String.ofList_toList]

/-- A number reads back if its text is the lexeme of a numeral that denotes it. -/
theorem readsBack_number_of_denotes
    {number : Binary64} (denotes : Denotes (writtenNumber number) number) :
    (Value.number number).ReadsBack := by
  have isLexeme : Lexeme .number (Value.number number).written.toList := by
    rw [toList_written_number]
    exact denotes.isLexeme
  apply readsBack_of_lexeme isLexeme
  · exact nofun
  · decide
  · rw [toList_written_number]
    exact Problem.ofLexeme_eq_nil denotes.denotes
  · rw [literalValue_ofLexeme isLexeme (by decide), toList_written_number, TokenKind.payload,
      denotes.denotes]

/-! ## Numbers that do not read back -/

theorem not_readsBack_infinite : ¬ (number (.infinite false)).ReadsBack := by
  intro reads
  have unread :
      (Report.ofSource (number (.infinite false)).written).expr ≠
        some (.literal (number (.infinite false))) := by
    decide +kernel
  exact unread reads.expr

/-- The digits in front of an exponent are a lexeme by themselves. -/
theorem exists_tail_scientificText
    {digits : List Char} (areDigits : ∀ digit ∈ digits, digit.isDigit) (notNil : digits ≠ [])
    (exponent : Int) :
    ∃ first middle later,
      Binary64.scientificText digits exponent = first :: (middle ++ 'e' :: later) ∧
      Text.isDigit first ∧ Opening.digit.tail (middle ++ 'e' :: later) = middle := by
  cases digits with
  | nil => exact absurd rfl notNil
  | cons first others =>
      obtain ⟨firstIsDigit, othersAreDigits⟩ := List.forall_mem_cons.1 areDigits
      obtain ⟨later, isExponent⟩ :
          ∃ later, Binary64.exponentText exponent = 'e' :: later := ⟨_, rfl⟩
      rw [Binary64.scientificText, isExponent]
      by_cases isSingle : others = []
      · refine ⟨first, [], later, ?_, Text.isDigit_of_plain firstIsDigit, ?_⟩
        · rw [isSingle]
          rfl
        · apply Opening.tail_digit_of_ne_point
          intro decimals equality
          exact absurd (List.cons.inj equality).1 (by decide)
      · refine ⟨first, '.' :: others, later, ?_, Text.isDigit_of_plain firstIsDigit, ?_⟩
        · have long : ¬ (first :: others).length ≤ 1 := by
            rw [List.length_cons]
            have positive := List.length_pos_iff.2 isSingle
            omega
          rw [if_neg long]
          rfl
        · have noDigits : ∀ digit ∈ ([] : List Char), Text.isDigit digit := by simp
          have tail := Opening.tail_digit_append noDigits (others ++ 'e' :: later)
          rw [List.nil_append, takeWhile_append_cons _ (by decide)] at tail
          · exact tail
          · exact fun digit member => Text.isDigit_of_plain (othersAreDigits digit member)

/-- A number that is written with an exponent does not read back. -/
theorem not_readsBack_of_scientificText
    {number : Binary64} {digits : List Char} {exponent : Int}
    (isText : writtenNumber number = Binary64.scientificText digits exponent)
    (areDigits : ∀ digit ∈ digits, digit.isDigit) (notNil : digits ≠ []) :
    ¬ (Value.number number).ReadsBack := by
  obtain ⟨first, middle, later, layout, isDigit, tail⟩ :=
    exists_tail_scientificText areDigits notNil exponent
  have opens : Opening.ofChar first = .digit := Opening.ofChar_eq_iff.2 isDigit
  have notSlash : first ≠ '/' := by
    rintro rfl
    exact absurd isDigit (by decide +kernel)
  have ahead :
      (Scan.ofText (Value.number number).written).rest = first :: (middle ++ 'e' :: later) := by
    rw [← layout, ← isText]
    exact toList_written_number number
  have front := Scan.drop_leading ahead (by rw [opens]; decide) notSlash
  have behind : (Scan.ofText (Value.number number).written).next.2.rest = 'e' :: later := by
    rw [Scan.rest_next_of_cons front, opens, tail, List.drop_left]
  have isLetter : Opening.ofChar 'e' = .letter := by decide +kernel
  have known : Opening.ofChar 'e' ≠ .unknown := by
    rw [isLetter]
    decide
  obtain ⟨lexemes, yields, _⟩ :=
    exists_yields (Scan.ofText (Value.number number).written).next.2.next.2
  have yieldsSecond := Yields.cons (Scan.drop_leading behind known (by decide)) known yields
  have yieldsFirst := Yields.cons front (by rw [opens]; decide) yieldsSecond
  exact not_readsBack_of_yields yieldsFirst

/-- Whether a value is no number, or one that is finite and not below `0.0001`, unless it is
zero. -/
def Positional (value : Value) : Prop :=
  ∀ number, value = .number number →
    number.isFinite ∧
      (number.magnitude = 0 ∨ (Binary64.ofDecimal false 1 (-4)).magnitude ≤ number.magnitude)

theorem readsBack_number_iff
    {number : Binary64} (notNegative : number.negative = false)
    (defined : number.magnitude ≤ Binary64.infiniteMagnitude) :
    (Value.number number).ReadsBack ↔ (Value.number number).Positional := by
  constructor
  · intro reads other equality
    injection equality with same
    subst same
    have finite : number.isFinite := by
      apply Decidable.byContradiction
      intro notFinite
      have isInfinite : number = .infinite false := by
        apply Binary64.eq_of_magnitude notNegative
        have notBelow : ¬ number.magnitude < Binary64.infiniteMagnitude :=
          mt decide_eq_true notFinite
        exact Nat.le_antisymm defined (Nat.le_of_not_lt notBelow)
      rw [isInfinite] at reads
      exact not_readsBack_infinite reads
    refine ⟨finite, ?_⟩
    by_cases isZero : number.magnitude = 0
    · exact Or.inl isZero
    · right
      apply Nat.le_of_not_lt
      intro small
      obtain ⟨digits, exponent, isText, notNil, areDigits⟩ :=
        Binary64.exists_scientificText notNegative finite isZero small
      exact not_readsBack_of_scientificText isText areDigits notNil reads
  · intro positional
    obtain ⟨finite, large⟩ := positional number rfl
    exact readsBack_number_of_denotes
      (Binary64.denotes_writtenNumber notNegative finite large)

/-- The values that the literals of source texts have. -/
inductive OfSource : Value → Prop
  | nil : OfSource nil
  | bool (truth : Bool) : OfSource (bool truth)
  | string {text : String} :
      '"' ∉ text.toList →
      OfSource (string text)
  | number {number : Binary64} :
      number.negative = false →
      number.magnitude ≤ Binary64.infiniteMagnitude →
      OfSource (.number number)

theorem OfSource.readsBack_iff {value : Value} (ofSource : value.OfSource) :
    value.ReadsBack ↔ value.Positional := by
  cases ofSource with
  | nil => exact iff_of_true readsBack_nil nofun
  | bool truth => exact iff_of_true (readsBack_bool truth) nofun
  | string noQuote => exact iff_of_true (readsBack_string noQuote) nofun
  | number notNegative defined => exact readsBack_number_iff notNegative defined

end Value

/-! ## The literals of a source text -/

theorem Numeral.toBinary64_bounds (digits count : Nat) (exponent : Int) :
    (decimal false digits count exponent).toBinary64.negative = false ∧
      (decimal false digits count exponent).toBinary64.magnitude ≤
        Binary64.infiniteMagnitude := by
  rw [toBinary64]
  split
  · exact ⟨rfl, Nat.zero_le _⟩
  · split
    · exact ⟨rfl, Nat.le_refl _⟩
    · exact ⟨rfl, Nat.min_le_right _ _⟩

theorem Lexeme.ofSource_payload
    {kind : TokenKind} {lexeme : List Char} (isLexeme : Lexeme kind lexeme)
    (isLiteral : kind ∈ TokenKind.literals) (notNil : kind ≠ .nilWord) :
    (kind.payload lexeme).OfSource := by
  simp only [TokenKind.literals, List.mem_cons, List.not_mem_nil, or_false] at isLiteral
  rcases isLiteral with rfl | rfl | rfl | rfl | rfl
  · exact .bool true
  · exact .bool false
  · contradiction
  · apply Value.OfSource.string
    intro member
    rw [String.toList_ofList] at member
    simpa using List.mem_takeWhile_imp member
  · rw [TokenKind.payload]
    cases found : Binary64.ofText? lexeme with
    | none => exact .nil
    | some number =>
        have isNumeral : ¬ Binary64.ofText? lexeme = none := by
          rw [found]
          exact Option.some_ne_none number
        rw [isLexeme.ofText?_eq_none_iff] at isNumeral
        obtain ⟨digits, count, exponent, parses⟩ :=
          Numeral.exists_parse?_of_decimal isLexeme (Text.isDecimalDigit_of_not_exists isNumeral)
        rw [Binary64.ofText?, parses, Option.map_some] at found
        obtain rfl := Option.some.inj found
        obtain ⟨notNegative, defined⟩ := Numeral.toBinary64_bounds digits count exponent
        exact .number notNegative defined

theorem Token.ofSource_literalValue
    {source : String} {token : Token} (member : token ∈ ofSource source)
    (isLiteral : token.kind ∈ TokenKind.literals) :
    token.literalValue.OfSource := by
  rw [literalValue]
  by_cases isNil : token.kind = .nilWord
  · rw [if_pos isNil]
    exact .nil
  · have goesOn := (TokenKind.plain_of_mem_literals isLiteral).goesOn
    rw [if_neg isNil, value_eq_payload member]
    exact (scanned_of_mem_ofSource member goesOn).isLexeme.ofSource_payload isLiteral isNil

theorem Groups.kept_subset (limit : Nat) (groups : Groups) (tokens : List Token) :
    groups.kept limit tokens ⊆ tokens := by
  induction tokens generalizing groups with
  | nil => exact List.Subset.refl _
  | cons token rest ih =>
      rw [kept]
      split
      · exact List.cons_subset_cons token (ih _)
      · exact List.subset_cons_of_subset token (ih _)

theorem Report.ofSource_of_mem_literals
    {source : String} {expr : Expr} (hasExpr : (ofSource source).expr = some expr)
    {value : Value} (member : value ∈ expr.literals) :
    value.OfSource := by
  obtain ⟨position, next, read, diagnostics, parses⟩ := exists_parses (ended_ofSource source)
  rw [parses.ofSource_eq] at hasExpr
  obtain rfl := Option.some.inj hasExpr
  have within : 0 + Descent.maxNesting = 64 := rfl
  rw [parses.reads.literals_eq within] at member
  obtain ⟨token, isLiteralToken, rfl⟩ := List.mem_map.1 member
  obtain ⟨inKept, isLiteral⟩ := List.mem_filter.1 isLiteralToken
  have inSource : token ∈ Token.ofSource source :=
    List.mem_of_mem_take (Groups.kept_subset 64 ⟨0, 0⟩ _ inKept)
  exact Token.ofSource_literalValue inSource (of_decide_eq_true isLiteral)

/-- The value of a literal of a source text reads back if and only if it is not an infinite
number and not one between zero and `0.0001`. -/
theorem Report.literals_readBack_iff
    {source : String} {expr : Expr} (hasExpr : (ofSource source).expr = some expr)
    {value : Value} (member : value ∈ expr.literals) :
    value.ReadsBack ↔ value.Positional :=
  (ofSource_of_mem_literals hasExpr member).readsBack_iff

/-- The least fraction that reads back. -/
theorem Report.literals_readBack_least :
    let value := Value.number (.ofDecimal false 1 (-4))
    (ofSource "0.0001").expr = some (.literal value) ∧
      value ∈ (Tree.literal value : Expr).literals ∧
      value.ReadsBack := by
  intro value
  have hasExpr : (ofSource "0.0001").expr = some (.literal value) := by decide +kernel
  have member : value ∈ (Tree.literal value : Expr).literals := List.mem_singleton_self value
  have positional : value.Positional := by
    intro number equality
    injection equality with same
    subst same
    exact ⟨by decide +kernel, Or.inr (Nat.le_refl _)⟩
  exact ⟨hasExpr, member, (literals_readBack_iff hasExpr member).2 positional⟩

/-- The number `0.00001` is written with an exponent, which is read as a number and a word. -/
theorem Report.not_readsBack_hundredThousandth :
    let value := Value.number (.ofDecimal false 1 (-5))
    (ofSource "0.00001").success ∧
      (ofSource "0.00001").expr = some (.literal value) ∧
      value.written = "1e-05" ∧
      (Token.ofSource value.written).map Token.kind = [.number, .identifier, .endOfInput] ∧
      ¬ value.ReadsBack := by
  intro value
  have written : value.written = "1e-05" := by decide +kernel
  have kinds :
      (Token.ofSource "1e-05").map Token.kind = [.number, .identifier, .endOfInput] := by
    decide +kernel
  refine ⟨by decide +kernel, by decide +kernel, written, ?_, ?_⟩
  · rw [written]
    exact kinds
  · rintro ⟨_, ⟨token, last, tokens, _, _⟩, _⟩
    rw [tokens_ofSource, written] at tokens
    rw [tokens] at kinds
    exact absurd (congrArg List.length kinds) (by simp)

end LoxSyntax
