import LoxSyntax.Proofs.ReadingBack
import LoxSyntax.Proofs.Text.Pieces
import LoxSyntax.Proofs.Tree.Preorder
import LoxSyntax.Proofs.Unambiguous

/-!
# Line by line

The listing of some tokens has a line for each token, and an outline one for each node.  Only the
text of a string can bring a line feed of its own: it stands twice in the record of its token, in
the lexeme and as the value, and once in the line of its literal.

So the listing of a source text has two lines too many for each line feed in a string, and the
outline one.  If there are none, the lines are the records of the tokens, and the descriptions of
the nodes in their order (`Report.lines_eq_iff`).
-/

namespace LoxSyntax

open Text (lineFeeds pieces)

/-- How many line feeds there are in the text that a value is. -/
def Value.lineFeeds : Value → Nat
  | string text => Text.lineFeeds text
  | nil | bool _ | number _ => 0

theorem Value.lineFeeds_written (value : Value) :
    Text.lineFeeds value.written = value.lineFeeds := by
  cases value with
  | nil => rfl
  | bool truth => cases truth <;> rfl
  | string text =>
      rw [written, Text.lineFeeds_append, Text.lineFeeds_append]
      simp [lineFeeds, Text.lineFeeds]
  | number number =>
      rw [lineFeeds, Text.lineFeeds_eq_zero_iff, toList_written_number]
      exact (numeric_writtenNumber number).bare.not_mem_lineFeed

theorem TokenKind.lineFeeds_name (kind : TokenKind) : lineFeeds kind.name = 0 := by
  cases kind <;> decide

theorem Text.lineFeeds_decimalText (number : Int) : lineFeeds (decimalText number) = 0 := by
  rw [lineFeeds_eq_zero_iff, decimalText, String.toList_ofList]
  exact (numeric_decimal number).bare.not_mem_lineFeed

theorem Scan.not_mem_lineFeed_of_word
    {first : Char} {others : List Char} (isLetter : Text.isLetter first)
    (areWord : ∀ character ∈ others,
      Text.isLetter character ∨ Text.isNumeric character ∨ character = '-') :
    '\n' ∉ first :: others := by
  intro member
  rcases List.mem_cons.1 member with rfl | later
  · exact absurd isLetter (by decide +kernel)
  · exact absurd (areWord '\n' later) (by decide +kernel)

theorem Scan.lineFeeds_wordValue
    {kind : TokenKind} {word : List Char} (none : '\n' ∉ word) :
    (wordValue kind (String.ofList word)).lineFeeds = 0 := by
  unfold wordValue
  split
  · rfl
  · rfl
  · rw [Value.lineFeeds, Text.lineFeeds_eq_zero_iff, String.toList_ofList]
    exact none

theorem TokenKind.lineFeeds_payload_number (lexeme : List Char) :
    (number.payload lexeme).lineFeeds = 0 := by
  rw [payload]
  split <;> rfl

/-- The value of a string has the line feeds of its body. -/
theorem TokenKind.lineFeeds_payload_string
    {body closing : List Char} (noQuote : '"' ∉ body) (closes : closing = [] ∨ closing = ['"']) :
    (string.payload ('"' :: (body ++ closing))).lineFeeds = body.count '\n' := by
  have inside : (body ++ closing).takeWhile (· ≠ '"') = body := by
    rcases closes with rfl | rfl
    · rw [List.append_nil, List.takeWhile_eq_self_iff.2 (Opening.ne_quote_of_not_mem noQuote)]
    · exact Opening.takeWhile_body noQuote []
  rw [payload, List.drop_one, List.tail_cons, inside, Value.lineFeeds, lineFeeds,
    String.toList_ofList]

/-- A lexeme has the line feeds of its value: those in the body of a string. -/
theorem Lexeme.count_lineFeed
    {kind : TokenKind} {text : List Char} (isLexeme : Lexeme kind text) :
    text.count '\n' = (kind.payload text).lineFeeds := by
  have numbers (isNumber : kind = .number) : text.count '\n' = (kind.payload text).lineFeeds := by
    rw [List.count_eq_zero.2 (isLexeme.not_mem_of_number isNumber), isNumber,
      TokenKind.lineFeeds_payload_number]
  cases isLexeme with
  | @mark character kind isMark =>
      have each : ∀ entry ∈ TokenKind.marks, [entry.1].count '\n' = 0 := by decide
      rw [TokenKind.payload_of_mark isMark]
      exact each _ isMark
  | single isPair =>
      have each : ∀ entry ∈ TokenKind.pairs, [entry.1].count '\n' = 0 := by decide
      rw [(TokenKind.payload_of_pair isPair _).2]
      exact each _ isPair
  | double isPair =>
      have each : ∀ entry ∈ TokenKind.pairs, [entry.1, '='].count '\n' = 0 := by decide
      rw [(TokenKind.payload_of_pair isPair _).1]
      exact each _ isPair
  | slash => rfl
  | @unclosedString body noQuote =>
      have value := TokenKind.lineFeeds_payload_string noQuote (.inl rfl)
      rw [List.append_nil] at value
      rw [value]
      exact List.count_cons_of_ne (by decide)
  | @closedString body noQuote =>
      rw [TokenKind.lineFeeds_payload_string noQuote (.inr rfl),
        List.count_cons_of_ne (by decide), List.count_append]
      rfl
  | whole | fraction => exact numbers rfl
  | word isLetter areWord named =>
      have none := Scan.not_mem_lineFeed_of_word isLetter areWord
      rw [List.count_eq_zero.2 none, TokenKind.eq_ofWord_iff.2 named, TokenKind.payload_ofWord,
        Scan.lineFeeds_wordValue none]

namespace Token

/-- The line feeds of a record are those of the lexeme and those of the value. -/
theorem lineFeeds_listed (token : Token) :
    lineFeeds token.listed = token.spelling.count '\n' + token.value.lineFeeds := by
  have blank : lineFeeds " " = 0 := rfl
  have colon : lineFeeds ": " = 0 := rfl
  have arrow : lineFeeds " -> " = 0 := rfl
  have spelled (lexeme : String) : lexeme.toList.count '\n' = lineFeeds lexeme := rfl
  rw [listed, spelling]
  cases token.lexeme <;> cases token.value <;>
    simp [Text.lineFeeds_append, Text.lineFeeds_decimalText, TokenKind.lineFeeds_name,
      Value.lineFeeds_written, Value.lineFeeds, blank, colon, arrow, spelled]

theorem not_mem_spelling_of_ends
    {text : List Char} {tokens : List Token} (tiling : Tiling text tokens)
    {token : Token} (member : token ∈ tokens) (ends : token.kind = .endOfInput) :
    '\n' ∉ token.spelling := by
  induction tiling with
  | @ended gap last _ _ noLexeme =>
      rw [List.mem_singleton.1 member, spelling, noLexeme]
      simp
  | @cut gap rest character last _ stray _ lexeme =>
      have notLineFeed : '\n' ≠ character := by
        rintro rfl
        exact stray.notBlank (by decide)
      rw [List.mem_singleton.1 member, spelling, lexeme, Option.getD_some, String.toList_ofList]
      simpa using notLineFeed
  | @token gap lexeme rest first others _ _ goesOn _ _ ih =>
      rcases List.mem_cons.1 member with rfl | later
      · exact absurd ends goesOn
      · exact ih later

/-- A token of a source text has the line feeds of its value. -/
theorem count_spelling
    {source : String} {token : Token} (member : token ∈ ofSource source) :
    token.spelling.count '\n' = token.value.lineFeeds := by
  rw [value_eq_payload member]
  by_cases ends : token.kind = .endOfInput
  · have none := not_mem_spelling_of_ends (Scan.ofText source).tiling_tokens member ends
    rw [ends, List.count_eq_zero.2 none]
    rfl
  · exact (scanned_of_mem_ofSource member ends).isLexeme.count_lineFeed

theorem lineFeeds_listed_of_mem
    {source : String} {token : Token} (member : token ∈ ofSource source) :
    lineFeeds token.listed = 2 * token.value.lineFeeds := by
  rw [lineFeeds_listed, count_spelling member, Nat.two_mul]

theorem map_lineFeeds_listed (source : String) :
    ((ofSource source).map listed).map lineFeeds =
      (ofSource source).map fun token => 2 * token.value.lineFeeds := by
  rw [List.map_map]
  apply List.map_congr_left
  intro token member
  rw [Function.comp_apply, lineFeeds_listed_of_mem member]

end Token

namespace Tree

theorem lineFeeds_outlineLine (level : Int) (label : String) :
    lineFeeds (outlineLine level label) = lineFeeds label := by
  have blanks (count : Nat) : lineFeeds (String.ofList (List.replicate count ' ')) = 0 := by
    rw [Text.lineFeeds_eq_zero_iff, String.toList_ofList]
    intro member
    exact absurd (List.eq_of_mem_replicate member) (by decide)
  rw [outlineLine, Text.lineFeeds_append, blanks, Nat.zero_add]

theorem lineFeeds_operatorText
    {operator : Token} (scanned : operator.Scanned)
    (isOperator : operator.kind ∈ TokenKind.operators) :
    lineFeeds (operatorText operator) = 0 :=
  Text.lineFeeds_eq_zero_iff.2 (scanned.bare_operatorText isOperator).not_mem_lineFeed

/-- The line feeds in the lines of a legible tree are those of its literals. -/
theorem Legible.sum_lineFeeds_outlineLines {expr : Expr} (legible : Legible expr) (level : Int) :
    ((expr.outlineLines level).map lineFeeds).sum = (expr.literals.map Value.lineFeeds).sum := by
  induction legible generalizing level with
  | @literal value _ =>
      rw [Expr.outlineLines_literal, List.map_singleton, lineFeeds_outlineLine,
        Text.lineFeeds_append, Value.lineFeeds_written]
      exact congrArg (· + 0) (Nat.zero_add _)
  | grouping _ ih =>
      rw [Expr.outlineLines_grouping, List.map_cons, List.sum_cons, lineFeeds_outlineLine, ih]
      exact Nat.zero_add _
  | unary scanned isOperator _ ih =>
      rw [Expr.outlineLines_unary, List.map_cons, List.sum_cons, lineFeeds_outlineLine,
        Text.lineFeeds_append, lineFeeds_operatorText scanned isOperator, ih]
      exact Nat.zero_add _
  | binary scanned isOperator _ _ leftIh rightIh =>
      rw [Expr.outlineLines_binary, List.map_cons, List.sum_cons, lineFeeds_outlineLine,
        Text.lineFeeds_append, lineFeeds_operatorText scanned isOperator, List.map_append,
        List.sum_append, leftIh, rightIh, literals, List.map_append, List.sum_append]
      exact Nat.zero_add _
  | empty =>
      rw [Expr.outlineLines_empty, List.map_singleton, lineFeeds_outlineLine]
      rfl

end Tree

/-- The listing of the tokens of a source text has a line for each token, and two more for each
line feed in the text of a string.  The outline of its tree has a line for each node, and one more
for each line feed in the text of a literal.  Without these the lines are the records of the
tokens, and the descriptions of the nodes in their order. -/
theorem Report.lines_eq_iff (source : String) :
    ∃ expr,
      (ofSource source).expr = some expr ∧
        let tokens := (ofSource source).tokens
        let records := pieces (Token.listing tokens)
        let lines := pieces expr.outlineText
        records.length =
            tokens.length + (tokens.map fun token => 2 * token.value.lineFeeds).sum ∧
          (records = tokens.map Token.listed ↔ ∀ token ∈ tokens, token.value.lineFeeds = 0) ∧
          lines.length = expr.size + (expr.literals.map Value.lineFeeds).sum ∧
          (lines = expr.preorder.map (Tree.nodeLine Empty.elim 0) ↔
            ∀ value ∈ expr.literals, value.lineFeeds = 0) := by
  obtain ⟨expr, hasExpr, legible⟩ := exists_legible source
  refine ⟨expr, hasExpr, ?_⟩
  intro tokens records lines
  have isSource : tokens = Token.ofSource source := tokens_ofSource source
  have someToken : tokens.map Token.listed ≠ [] := by
    obtain ⟨last, split, _⟩ := Token.ofSource_eq_append_last source
    rw [isSource, split]
    simp
  have recordFeeds :
      (tokens.map Token.listed).map lineFeeds =
        tokens.map fun token => 2 * token.value.lineFeeds := by
    rw [isSource]
    exact Token.map_lineFeeds_listed source
  have someNode : expr.preorder.map (Tree.nodeLine Empty.elim 0) ≠ [] := by
    simpa using expr.preorder_ne_nil
  have nodeFeeds :
      ((expr.preorder.map (Tree.nodeLine Empty.elim 0)).map lineFeeds).sum =
        (expr.literals.map Value.lineFeeds).sum := by
    rw [← Expr.outlineLines_eq]
    exact legible.sum_lineFeeds_outlineLines 0
  have outline :
      lines = pieces ("\n".intercalate (expr.preorder.map (Tree.nodeLine Empty.elim 0))) := by
    rw [← Expr.outlineLines_eq]
    rfl
  refine ⟨?_, ?_, ?_, ?_⟩
  · rw [← recordFeeds, ← tokens.length_map Token.listed]
    exact Text.length_pieces_intercalate someToken
  · refine (Text.pieces_intercalate_eq_iff someToken).trans ?_
    rw [recordFeeds, List.sum_eq_zero_iff_forall_eq_nat, List.forall_mem_map]
    have twice (token : Token) : 2 * token.value.lineFeeds = 0 ↔ token.value.lineFeeds = 0 := by
      omega
    simp only [twice]
  · rw [outline, Text.length_pieces_intercalate someNode, nodeFeeds, List.length_map,
      Tree.length_preorder]
  · rw [outline, Text.pieces_intercalate_eq_iff someNode, nodeFeeds,
      List.sum_eq_zero_iff_forall_eq_nat, List.forall_mem_map]

/-- A string over two lines: the record of its token has three lines, and its literal two. -/
theorem Report.lines_ne_brokenString :
    let report := ofSource "\"a\nb\""
    let expr : Expr := .literal (.string "a\nb")
    let records := pieces (Token.listing report.tokens)
    let lines := pieces expr.outlineText
    report.success ∧
      report.expr = some expr ∧
      report.tokens.length = 2 ∧
      records = ["2: STRING \"a", "b\" -> \"a", "b\"", "2: EOF"] ∧
      records ≠ report.tokens.map Token.listed ∧
      expr.preorder.length = 1 ∧
      lines = ["Literal \"a", "b\""] ∧
      lines ≠ expr.preorder.map (Tree.nodeLine Empty.elim 0) := by
  intro report expr records lines
  have twoTokens : report.tokens.length = 2 := by decide +kernel
  have fourRecords : records = ["2: STRING \"a", "b\" -> \"a", "b\"", "2: EOF"] := by
    decide +kernel
  have twoLines : lines = ["Literal \"a", "b\""] := by decide +kernel
  refine ⟨by decide +kernel, by decide +kernel, twoTokens, fourRecords, ?_, rfl, twoLines, ?_⟩
  · intro same
    have lengths := congrArg List.length same
    rw [fourRecords, List.length_map, twoTokens] at lengths
    exact absurd lengths (by decide)
  · intro same
    have lengths := congrArg List.length same
    rw [twoLines, List.length_map] at lengths
    exact absurd lengths (by decide)

end LoxSyntax
