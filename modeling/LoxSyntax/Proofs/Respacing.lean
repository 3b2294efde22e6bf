import LoxSyntax.Proofs.Report
import LoxSyntax.Proofs.Scan.Spacing

/-!
# Layout does not matter

A text that is made of the lexemes of another one, with other layout around them, is read as the
same tokens on other lines.  So the reports on the two texts agree in everything but lines
(`Report.agree_of_spaced`).
-/

namespace LoxSyntax

open Descent

/-- A message without the line number in it, which stands between a word and a colon. -/
def withoutLine (message : String) : String :=
  let characters := message.toList
  let before := "line ".length
  String.ofList (characters.take before ++ (characters.drop before).dropWhile (· ≠ ':'))

theorem Text.ne_colon_of_mem_decimal
    {number : Int} {character : Char} (member : character ∈ decimal number) :
    character ≠ ':' := by
  rintro rfl
  rw [decimal, List.mem_append] at member
  rcases member with inSign | inDigits
  · split at inSign <;> simp at inSign
  · exact absurd (Nat.isDigit_of_mem_toDigits (by decide) (by decide) inDigits) (by decide)

theorem withoutLine_message (diagnostic : Diagnostic) :
    withoutLine diagnostic.message = "line : " ++ diagnostic.problem.description := by
  have number :
      ∀ character ∈ Text.decimal diagnostic.line, decide (character ≠ ':') :=
    fun character member => decide_eq_true (Text.ne_colon_of_mem_decimal member)
  have characters :
      diagnostic.message.toList =
        "line ".toList ++ (Text.decimal diagnostic.line ++
          ':' :: ' ' :: diagnostic.problem.description.toList) := by
    simp [Diagnostic.message, Text.decimalText]
  have before : "line ".length = "line ".toList.length := rfl
  have behind :
      (':' :: ' ' :: diagnostic.problem.description.toList).dropWhile (· ≠ ':') =
        ':' :: ' ' :: diagnostic.problem.description.toList :=
    List.dropWhile_cons_of_neg (by decide)
  simp only [withoutLine]
  rw [characters, before, List.take_left, List.drop_left, List.dropWhile_append_of_pos number,
    behind]
  apply String.toList_injective
  simp

theorem map_withoutLine_message {diagnostics others : List Diagnostic}
    (same : diagnostics.map Diagnostic.problem = others.map Diagnostic.problem) :
    (diagnostics.map Diagnostic.message).map withoutLine =
      (others.map Diagnostic.message).map withoutLine := by
  have described (list : List Diagnostic) :
      (list.map Diagnostic.message).map withoutLine =
        (list.map Diagnostic.problem).map fun problem => "line : " ++ problem.description := by
    simp [withoutLine_message]
  rw [described, described, same]

/-- What a token says apart from its line. -/
def Token.reading (token : Token) : TokenKind × Option String × Value :=
  (token.kind, token.lexeme, token.value)

/-- A text that is made of the closed lexemes of another one yields the same lexemes. -/
theorem exists_yields_of_spaced
    {source respaced : String}
    (closed : ∀ token ∈ Token.ofSource source, ClosedLexeme token.kind token.spelling)
    (spaced : Spaced (Token.spellings (Token.ofSource source)) respaced.toList) :
    ∃ lexemes, Yields (Scan.ofText source) lexemes ∧ Yields (Scan.ofText respaced) lexemes := by
  obtain ⟨lexemes, yields, areLexemes⟩ := exists_yields (Scan.ofText source)
  refine ⟨lexemes, yields, ?_⟩
  have spelled : lexemes = Token.spellings (Token.ofSource source) := yields.lexemes_eq
  rw [← spelled] at spaced
  refine spaced.yields fun lexeme member => ?_
  obtain ⟨kind, isLexeme⟩ := areLexemes lexeme member
  obtain ⟨token, tokenMember, tokenKind, spelling⟩ := yields.exists_token member
  have closedToken := closed token tokenMember
  rw [tokenKind, spelling, isLexeme.kind_ofLexeme] at closedToken
  exact ⟨kind, isLexeme, closedToken⟩

/-- What two scans that yield the same lexemes have in common. -/
theorem Yields.reports_agree
    {source respaced : String} {lexemes : List (List Char)}
    (yields : Yields (Scan.ofText source) lexemes)
    (respacedYields : Yields (Scan.ofText respaced) lexemes) :
    ∃ expr respacedExpr : Expr,
      (Report.ofSource source).expr = some expr ∧
        (Report.ofSource respaced).expr = some respacedExpr ∧
        respacedExpr.mapLines toFirstLine = expr.mapLines toFirstLine ∧
        (Report.ofSource respaced).errors.map withoutLine =
          (Report.ofSource source).errors.map withoutLine := by
  obtain ⟨last, split, isEnd⟩ := Token.ofSource_eq_append_last source
  obtain ⟨respacedLast, respacedSplit, respacedIsEnd⟩ := Token.ofSource_eq_append_last respaced
  obtain ⟨_, _, expr, diagnostics, parses⟩ := exists_parses (ended_ofSource source)
  obtain ⟨_, _, respacedExpr, respacedDiagnostics, respacedParses⟩ :=
    exists_parses (ended_ofSource respaced)
  have report := parses.ofSource_eq
  have respacedReport := respacedParses.ofSource_eq
  rw [split] at parses
  rw [respacedSplit] at respacedParses
  have same :
      (Token.beforeEnd (Token.ofSource respaced)).map (Token.mapLine toFirstLine) =
        (Token.beforeEnd (Token.ofSource source)).map (Token.mapLine toFirstLine) :=
    respacedYields.tokens.trans yields.tokens.symm
  obtain ⟨sameExpr, sameProblems⟩ :=
    parses.alike isEnd respacedParses respacedIsEnd same
  refine ⟨expr, respacedExpr, by rw [report], by rw [respacedReport], sameExpr, ?_⟩
  rw [report, respacedReport]
  simp only [Report.errors, Option.map_none, Option.toList_none, List.append_nil]
  refine map_withoutLine_message ?_
  rw [List.map_append, List.map_append, sameProblems, yields.problems, respacedYields.problems]
  rfl

/-- Reports on texts with the same lexemes agree in everything but lines, where every string is
closed. -/
theorem Report.agree_of_spaced
    {source respaced : String}
    (closed : ∀ token ∈ Token.ofSource source, ClosedLexeme token.kind token.spelling)
    (spaced : Spaced (Token.spellings (Token.ofSource source)) respaced.toList) :
    (Token.beforeEnd (Token.ofSource respaced)).map Token.reading =
        (Token.beforeEnd (Token.ofSource source)).map Token.reading ∧
      (ofSource respaced).success = (ofSource source).success ∧
      (∃ expr respacedExpr,
        (ofSource source).expr = some expr ∧ (ofSource respaced).expr = some respacedExpr ∧
          Expr.prefixText respacedExpr = expr.prefixText ∧
          Expr.outlineText respacedExpr = expr.outlineText) ∧
      (ofSource respaced).errors.map withoutLine = (ofSource source).errors.map withoutLine := by
  obtain ⟨lexemes, yields, respacedYields⟩ := exists_yields_of_spaced closed spaced
  obtain ⟨expr, respacedExpr, isExpr, isRespacedExpr, sameExpr, sameErrors⟩ :=
    yields.reports_agree respacedYields
  refine ⟨?_, ?_, ⟨expr, respacedExpr, isExpr, isRespacedExpr, ?_, ?_⟩, sameErrors⟩
  · have same := congrArg (List.map Token.reading) (respacedYields.tokens.trans yields.tokens.symm)
    rw [List.map_map, List.map_map] at same
    exact same
  · have empty (errors : List String) : (errors.map withoutLine).isEmpty = errors.isEmpty :=
      List.isEmpty_map
    rw [success, success, ← empty, sameErrors, empty]
  · rw [← Expr.prefixText_mapLines toFirstLine, sameExpr, Expr.prefixText_mapLines]
  · rw [← Expr.outlineText_mapLines toFirstLine, sameExpr, Expr.outlineText_mapLines]

/-- Comments and line feeds move what is wrong with a quotient to other lines. -/
theorem Report.agree_spacedQuotient :
    let source := "\"a\"/(1²"
    let respaced := "//!\n\"a\" //?\n/\t( 1²"
    (∀ token ∈ Token.ofSource source, ClosedLexeme token.kind token.spelling) ∧
      Spaced (Token.spellings (Token.ofSource source)) respaced.toList ∧
      (ofSource respaced).errors.map withoutLine = (ofSource source).errors.map withoutLine := by
  intro source respaced
  have closed : ∀ token ∈ Token.ofSource source, ClosedLexeme token.kind token.spelling := by
    decide +kernel
  have spelled :
      Token.spellings (Token.ofSource source) =
        [['"', 'a', '"'], ['/'], ['('], ['1', '²']] := by
    decide +kernel
  have front : Filler ('/' :: '/' :: (['!'] ++ ['\n'])) := .comment (by simp) .nil
  have comment : Filler ('/' :: '/' :: (['?'] ++ ['\n'])) := .comment (by simp) .nil
  have space : Text.isBlank ' ' := by decide
  have tab : Text.isBlank '\t' := by decide
  have spaced : Spaced (Token.spellings (Token.ofSource source)) respaced.toList := by
    have followed : Followed [['"', 'a', '"'], ['/'], ['('], ['1', '²']] _ :=
      .cons (.blank space comment) (.cons space _) (fun _ => List.cons_ne_nil _ _)
        (.cons (.blank tab .nil) (.cons tab []) (fun _ => List.cons_ne_nil _ _)
          (.cons (.blank space .nil) (.cons space []) (fun _ => List.cons_ne_nil _ _)
            (.cons .nil .nil (absurd rfl) .nil)))
    rw [spelled]
    refine ⟨_, _, ?_, front, followed⟩
    decide
  obtain ⟨_, _, _, errors⟩ := agree_of_spaced closed spaced
  exact ⟨closed, spaced, errors⟩

end LoxSyntax
