import LoxSyntax.Proofs.Descent.Reads
import LoxSyntax.Proofs.Scan.Yield
import LoxSyntax.Proofs.Written

/-!
# Trees of scanned tokens

A scanned token is, apart from its line, settled by its lexeme (`Token.Scanned.eq_of_operatorText`).
Its text, if it is an operator, is made of marks, and its value, if it is a literal, has no quote
in it.

So a tree that is read from scanned tokens is legible (`Reads.legible`): nothing in it that is
shown can be taken for what the shown form of a tree adds.
-/

namespace LoxSyntax

namespace TokenKind

/-- The kinds of the operators, before one operand or between two. -/
def operators : List TokenKind :=
  unaryOperators ++ equalityOperators ++ comparisonOperators ++ termOperators ++ factorOperators

theorem mem_operators_of_mem_unaryOperators
    {kind : TokenKind}
    (isOperator : kind ∈ unaryOperators) :
    kind ∈ operators := by
  revert isOperator
  cases kind <;> decide

theorem ofWord_not_mem_operators (word : String) : ofWord word ∉ operators := by
  have each : ∀ entry ∈ keywords, entry.2 ∉ operators := by decide
  rcases ofWord_eq_or_mem word with isIdentifier | isKeyword
  · rw [isIdentifier]
    decide
  · exact each _ isKeyword

end TokenKind

theorem Precedence.mem_operators
    {precedence : Precedence} {kind : TokenKind}
    (isOperator : kind ∈ precedence.operators) :
    kind ∈ TokenKind.operators := by
  revert isOperator
  cases precedence <;> cases kind <;> decide

/-- The marks that operators are written with. -/
def operatorMarks : List Char :=
  ['-', '+', '*', '/', '!', '=', '<', '>']

/-- An operator is written with marks. -/
theorem Lexeme.mem_operatorMarks
    {kind : TokenKind} {text : List Char}
    (isLexeme : Lexeme kind text)
    (isOperator : kind ∈ TokenKind.operators) :
    ∀ character ∈ text, character ∈ operatorMarks := by
  cases isLexeme with
  | mark member =>
      have each :
          ∀ entry ∈ TokenKind.marks, entry.2 ∈ TokenKind.operators →
            entry.1 ∈ operatorMarks := by
        decide
      simpa using each _ member isOperator
  | single member =>
      have each : ∀ entry ∈ TokenKind.pairs, entry.1 ∈ operatorMarks := by decide
      simpa using each _ member
  | double member =>
      have each : ∀ entry ∈ TokenKind.pairs, entry.1 ∈ operatorMarks := by decide
      have isEqual : '=' ∈ operatorMarks := by decide
      simpa [isEqual] using each _ member
  | slash => simp [operatorMarks]
  | unclosedString | closedString | whole | fraction => exact absurd isOperator (by decide)
  | word _ _ named =>
      rw [TokenKind.eq_ofWord_iff.2 named] at isOperator
      exact absurd isOperator (TokenKind.ofWord_not_mem_operators _)

namespace Token

theorem value_ofLexeme
    {first : Char}
    (opening : Opening)
    (admits : opening.Admits first)
    (others : List Char) :
    (ofLexeme 1 (first :: others)).value = opening.value (first :: others) := by
  rw [ofLexeme, Opening.ofLexeme, Opening.ofChar_eq_iff.2 admits]
  rfl

/-- No token has a text with a quote in it as its value. -/
theorem unquoted_ofLexeme
    {kind : TokenKind} {text : List Char}
    (isLexeme : Lexeme kind text) :
    (ofLexeme 1 text).value.Unquoted := by
  have number (digits : List Char) : (Opening.digit.value digits).Unquoted := by
    rw [Opening.value]
    split <;> trivial
  have body (quoted : List Char) : (Opening.quote.value quoted).Unquoted := by
    intro member
    rw [String.toList_ofList] at member
    simpa using List.mem_takeWhile_imp member
  cases isLexeme with
  | mark member =>
      rw [value_ofLexeme (.mark _) member]
      trivial
  | single member | double member =>
      rw [value_ofLexeme (.pair _ _) member]
      trivial
  | slash =>
      rw [value_ofLexeme .slash rfl]
      trivial
  | unclosedString | closedString =>
      rw [value_ofLexeme .quote rfl]
      exact body _
  | whole isDigit | fraction isDigit =>
      rw [value_ofLexeme .digit isDigit]
      exact number _
  | @word _ first others isLetter areWord =>
      have noQuote : '"' ∉ first :: others := by
        intro member
        rcases List.mem_cons.1 member with rfl | later
        · exact absurd isLetter (by decide +kernel)
        · exact absurd (areWord '"' later) (by decide +kernel)
      rw [value_ofLexeme .letter isLetter, Opening.value]
      unfold Scan.wordValue
      split
      · trivial
      · trivial
      · rw [Value.Unquoted, String.toList_ofList]
        exact noQuote

/-- `token.Scanned` when the token says what its lexeme does, on whatever line. -/
structure Scanned (token : Token) : Prop where
  isLexeme : Lexeme token.kind token.spelling
  eq_ofLexeme : token.mapLine toFirstLine = ofLexeme 1 token.spelling

/-- The tokens of a source text are scanned. -/
theorem scanned_of_mem_ofSource
    {source : String} {token : Token}
    (member : token ∈ ofSource source)
    (goesOn : token.kind ≠ .endOfInput) :
    token.Scanned := by
  obtain ⟨lexemes, yields, areLexemes⟩ := exists_yields (Scan.ofText source)
  have proper : token ∈ beforeEnd (Scan.ofText source).tokens.1 :=
    List.mem_filter.2 ⟨member, by simpa using goesOn⟩
  have mapped : token.mapLine toFirstLine ∈ lexemes.map (ofLexeme 1) := by
    rw [← yields.tokens]
    exact List.mem_map_of_mem proper
  obtain ⟨lexeme, lexemeMember, equality⟩ := List.mem_map.1 mapped
  obtain ⟨kind, isLexeme⟩ := areLexemes lexeme lexemeMember
  have spelled : token.spelling = lexeme := by
    rw [← spelling_ofLexeme 1 lexeme, equality]
    rfl
  have sameKind : token.kind = kind := by
    rw [← isLexeme.kind_ofLexeme 1, equality]
    rfl
  refine ⟨?_, ?_⟩
  · rw [spelled, sameKind]
    exact isLexeme
  · rw [spelled, equality]

namespace Scanned

variable {token other : Token}

theorem toList_operatorText (scanned : token.Scanned) :
    (Tree.operatorText token).toList = token.spelling := by
  have lexeme : token.lexeme = some (String.ofList token.spelling) :=
    congrArg Token.lexeme scanned.eq_ofLexeme
  rw [Tree.operatorText, lexeme]
  exact String.toList_ofList

/-- A scanned token is settled by its lexeme, apart from its line. -/
theorem eq_of_operatorText
    (scanned : token.Scanned)
    (otherScanned : other.Scanned)
    (texts : (Tree.operatorText token).toList = (Tree.operatorText other).toList) :
    token.mapLine toFirstLine = other.mapLine toFirstLine := by
  rw [scanned.toList_operatorText, otherScanned.toList_operatorText] at texts
  rw [scanned.eq_ofLexeme, otherScanned.eq_ofLexeme, texts]

theorem unquoted (scanned : token.Scanned) : token.value.Unquoted := by
  have value : token.value = (ofLexeme 1 token.spelling).value := by
    rw [← scanned.eq_ofLexeme]
    rfl
  rw [value]
  exact unquoted_ofLexeme scanned.isLexeme

/-- An operator is over in front of what may stand behind a value. -/
theorem bare_operatorText
    (scanned : token.Scanned)
    (isOperator : token.kind ∈ TokenKind.operators) :
    Bare (Tree.operatorText token).toList := by
  rw [scanned.toList_operatorText]
  intro character member
  have each : operatorMarks.all fun mark => !delimits mark := by decide
  have isMark := scanned.isLexeme.mem_operatorMarks isOperator character member
  exact List.all_eq_true.1 each character isMark

/-- No operator is the word that a group is shown with. -/
theorem operatorText_ne_group
    (scanned : token.Scanned)
    (isOperator : token.kind ∈ TokenKind.operators) :
    (Tree.operatorText token).toList ≠ "group".toList := by
  rw [scanned.toList_operatorText]
  intro isWord
  have marks := scanned.isLexeme.mem_operatorMarks isOperator
  rw [isWord] at marks
  exact absurd (marks 'g' (by simp)) (by decide)

end Scanned

end Token

namespace Tree

/-- A tree whose operators are scanned and whose values have no quote in them. -/
inductive Legible : Expr → Prop
  | literal {value : Value} :
      value.Unquoted →
      Legible (.literal value)
  | grouping {inner : Expr} :
      Legible inner →
      Legible (.grouping inner)
  | unary {operator : Token} {right : Expr} :
      operator.Scanned →
      operator.kind ∈ TokenKind.operators →
      Legible right →
      Legible (.unary operator right)
  | binary {operator : Token} {left right : Expr} :
      operator.Scanned →
      operator.kind ∈ TokenKind.operators →
      Legible left →
      Legible right →
      Legible (.binary left operator right)
  | empty :
      Legible .empty

end Tree

/-- What a level reads from scanned tokens is legible. -/
theorem Reads.legible
    {level : Level} {room : Nat} {tokens : List Token} {next : Token} {expr : Expr}
    {diagnostics : List Diagnostic}
    (reads : Reads level room tokens next expr diagnostics)
    (scanned : ∀ token ∈ tokens, token.kind ≠ .endOfInput → token.Scanned) :
    Tree.Legible expr := by
  induction reads with
  | @literal room token next isLiteral =>
      have goesOn := (TokenKind.plain_of_mem_literals isLiteral).goesOn
      rw [Descent.Ladder.literal]
      split
      · exact .literal trivial
      · exact .literal (scanned token (List.mem_singleton_self token) goesOn).unquoted
  | missing => exact .empty
  | closed _ _ _ ih =>
      apply Tree.Legible.grouping
      apply ih
      intro token member
      exact scanned token (by simp [member])
  | unclosed _ _ _ _ ih =>
      apply Tree.Legible.grouping
      apply ih
      intro token member
      exact scanned token (List.mem_cons_of_mem _ member)
  | deep => exact .empty
  | operand _ _ ih => exact ih scanned
  | @unary room operator next tokens right diagnostics isOperator _ ih =>
      have goesOn := (TokenKind.plain_of_mem_unaryOperators isOperator).goesOn
      apply Tree.Legible.unary (scanned operator List.mem_cons_self goesOn)
      · exact TokenKind.mem_operators_of_mem_unaryOperators isOperator
      · apply ih
        intro token member
        exact scanned token (List.mem_cons_of_mem _ member)
  | single _ _ ih => exact ih scanned
  | @binary _ _ operator _ _ _ _ _ _ _ _ isOperator _ _ leftIh rightIh =>
      have goesOn := (Precedence.plain_of_mem isOperator).goesOn
      apply Tree.Legible.binary (scanned operator (by simp) goesOn)
      · exact Precedence.mem_operators isOperator
      · apply leftIh
        intro token member
        exact scanned token (List.mem_append_left _ member)
      · apply rightIh
        intro token member
        exact scanned token (List.mem_append_right _ (List.mem_cons_of_mem _ member))

end LoxSyntax
