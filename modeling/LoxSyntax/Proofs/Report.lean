import LoxSyntax.Proofs.Descent.Run
import LoxSyntax.Proofs.Scan.Tiling
import LoxSyntax.Report

/-!
# What a report holds

The tokens of a source text end, so the parser always answers with a tree: a report holds the
tokens, the tree, and the diagnostics of the scan in front of those of the parser
(`Parses.ofSource_eq`).  A failure that no source text accounts for can come from another parser
only, and then the report still holds everything up to there.
-/

namespace LoxSyntax

open Descent

/-- The messages of the scan of a source text. -/
def Report.scanErrors (source : String) : List String :=
  (Scan.ofText source).tokens.2.diagnostics.map Diagnostic.message

/-- The tokens of a source text hold one that ends the input. -/
theorem ended_ofSource (source : String) : Ended (Token.ofSource source) := by
  obtain ⟨others, last, equality, isEnd, _⟩ :=
    (Scan.ofText source).tiling_tokens.eq_append_last
  refine ⟨last, ?_, isEnd⟩
  rw [Token.ofSource, equality]
  exact List.mem_append_right _ (List.mem_singleton_self last)

namespace Parses

variable {position : Nat} {next : Token} {expr : Expr} {diagnostics : List Diagnostic}

theorem ofTokens_eq
    {list : List Token} (parses : Parses list position next expr diagnostics) :
    Expr.ofTokens list = verdict expr diagnostics :=
  ofTokens_eq_of_parse parses.parse_eq

/-- What the report on a source text holds. -/
theorem ofSource_eq
    {source : String}
    (parses : Parses (Token.ofSource source) position next expr diagnostics) :
    Report.ofSource source =
      ⟨Token.ofSource source, some expr,
        (Scan.ofText source).tokens.2.diagnostics ++ diagnostics, none⟩ := by
  have answer : Expr.ofTokens (Scan.ofText source).tokens.1 = verdict expr diagnostics :=
    parses.ofTokens_eq
  simp only [Report.ofSource, Report.ofSourceWith, answer]
  cases diagnostics with
  | nil =>
      rw [List.append_nil]
      rfl
  | cons first others => rfl

/-- The messages of the scan come in front of those of the parser. -/
theorem errors_ofSource
    {source : String}
    (parses : Parses (Token.ofSource source) position next expr diagnostics) :
    (Report.ofSource source).errors =
      Report.scanErrors source ++ diagnostics.map Diagnostic.message := by
  rw [parses.ofSource_eq]
  simp [Report.errors, Report.scanErrors]

end Parses

/-- A parser that fails for another reason leaves what the scan has found. -/
theorem Report.ofSourceWith_of_fault
    {parse : List Token → Except ParserFailure Expr} {source description : String}
    (fails : parse (Token.ofSource source) = .error (.fault description)) :
    ofSourceWith parse source =
      ⟨Token.ofSource source, none, (Scan.ofText source).tokens.2.diagnostics,
        some description⟩ := by
  have answer : parse (Scan.ofText source).tokens.1 = .error (.fault description) := fails
  simp only [ofSourceWith, answer]
  rfl

/-- No message of a diagnostic speaks of an internal error. -/
theorem not_isPrefix_message (diagnostic : Diagnostic) :
    ¬ "Internal error".toList <+: diagnostic.message.toList := by
  rintro ⟨rest, equality⟩
  have heads := congrArg List.head? equality
  simp [Diagnostic.message] at heads

/-- A report holds all tokens, a tree, and the messages of the scan followed by those of the
parser.  It succeeds if and only if there are none, and none is about an internal error.  Where
a parser fails for another reason, the tokens and the messages of the scan are still there. -/
theorem Report.collects_all (source : String) :
    (∃ answer descent expr,
      parse (ofTokens (Token.ofSource source)) = .ok answer descent ∧
        bestEffort? answer = some expr ∧
        let parsed := descent.diagnostics.map Diagnostic.message
        (ofSource source).tokens = Token.ofSource source ∧
          (ofSource source).expr = some expr ∧
          (ofSource source).errors = scanErrors source ++ parsed ∧
          ((ofSource source).success = true ↔ scanErrors source ++ parsed = []) ∧
          ∀ error ∈ (ofSource source).errors, ¬ "Internal error".toList <+: error.toList) ∧
      ∀ (parse : List Token → Except ParserFailure Expr) (description : String),
        parse (Token.ofSource source) = .error (.fault description) →
        let report := ofSourceWith parse source
        report.tokens = Token.ofSource source ∧
          report.expr = none ∧
          report.errors = scanErrors source ++ ["Internal error: " ++ description] ∧
          report.success = false := by
  refine ⟨?_, ?_⟩
  · obtain ⟨position, next, expr, diagnostics, parses⟩ :=
      exists_parses (ended_ofSource source)
    refine ⟨_, _, expr, parses.parse_eq, bestEffort?_verdict expr diagnostics, ?_⟩
    refine ⟨?_, ?_, parses.errors_ofSource, ?_, ?_⟩
    · rw [parses.ofSource_eq]
    · rw [parses.ofSource_eq]
    · rw [success, parses.errors_ofSource, List.isEmpty_iff]
      rfl
    · intro error member
      rw [parses.errors_ofSource, scanErrors, ← List.map_append] at member
      obtain ⟨diagnostic, _, rfl⟩ := List.mem_map.1 member
      exact not_isPrefix_message diagnostic
  · intro parse description fails
    rw [ofSourceWith_of_fault fails]
    refine ⟨rfl, rfl, rfl, ?_⟩
    simp [success, errors]

/-- A parser that runs out of memory does not make a report forget the tokens and what is wrong
with a number. -/
theorem Report.collects_overflow :
    let parse : List Token → Except ParserFailure Expr :=
      fun _ => .error (.fault "out of memory")
    parse (Token.ofSource "(1²") = .error (.fault "out of memory") ∧
      (ofSourceWith parse "(1²").tokens = Token.ofSource "(1²" ∧
      (ofSourceWith parse "(1²").errors =
        ["line 1: invalid number literal '1²'", "Internal error: out of memory"] := by
  intro parse
  obtain ⟨tokens, _, errors, _⟩ := (collects_all "(1²").2 parse "out of memory" rfl
  refine ⟨rfl, tokens, errors.trans ?_⟩
  have scanned : (Scan.ofText "(1²").tokens.2.diagnostics = [⟨1, .invalidNumber "1²"⟩] := by
    decide +kernel
  rw [scanErrors, scanned]
  decide

end LoxSyntax
