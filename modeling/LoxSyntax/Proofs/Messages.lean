import LoxSyntax.Proofs.Complaints
import LoxSyntax.Proofs.Report
import LoxSyntax.Proofs.Scan.LineCount
import LoxSyntax.Proofs.Text.Pieces
import LoxSyntax.Proofs.Tree.Legible

/-!
# Messages

Each message of a report is a single line, and names a line of the source text.  The scan reports
its problems in the order of the text, and so does the parser: the groups that are too deep as
they open, and then those that are never closed, at a token that is not in front of them.

As no message has a line feed in it, the messages can be told apart again when they are joined
(`Report.exists_located`).
-/

namespace LoxSyntax

/-- Whether the message of a diagnostic is a single line and names one of the given number of
lines. -/
structure Diagnostic.Located (lines : Int) (diagnostic : Diagnostic) : Prop where
  positive : 1 ≤ diagnostic.line
  inside : diagnostic.line ≤ lines
  names : ∃ text,
    diagnostic.message = "line " ++ Text.decimalText diagnostic.line ++ ": " ++ text
  singleLine : '\n' ∉ diagnostic.message.toList

theorem Diagnostic.not_mem_message
    {diagnostic : Diagnostic}
    (described : '\n' ∉ diagnostic.problem.description.toList) :
    '\n' ∉ diagnostic.message.toList := by
  have number : '\n' ∉ Text.decimal diagnostic.line :=
    (numeric_decimal diagnostic.line).bare.not_mem_lineFeed
  simpa [message, Text.decimalText, number] using described

theorem Token.located
    {source : String} {token : Token} (member : token ∈ ofSource source)
    {problem : Problem} (described : '\n' ∉ problem.description.toList) :
    Diagnostic.Located (1 + source.toList.count '\n') ⟨token.line, problem⟩ := by
  obtain ⟨positive, inside⟩ := line_mem_ofSource member
  exact ⟨positive, inside, ⟨_, rfl⟩, Diagnostic.not_mem_message described⟩

theorem Lexeme.not_mem_of_number
    {kind : TokenKind} {text : List Char}
    (isLexeme : Lexeme kind text) (isNumber : kind = .number) :
    '\n' ∉ text := by
  have apart {digits : List Char} (all : ∀ digit ∈ digits, Text.isDigit digit) :
      '\n' ∉ digits := by
    intro member
    exact absurd (all _ member) (by decide)
  obtain ⟨first, digits, areDigits, rfl | ⟨decimals, areDecimals, rfl⟩⟩ :=
    isLexeme.number_cases isNumber
  · exact apart areDigits
  · intro member
    rw [← List.cons_append] at member
    rcases List.mem_append.1 member with inDigits | behind
    · exact apart areDigits inDigits
    · rcases List.mem_cons.1 behind with isPoint | inDecimals
      · exact absurd isPoint (by decide)
      · exact apart areDecimals inDecimals

namespace Token

theorem mem_complaints
    {token : Token} {diagnostic : Diagnostic} (member : diagnostic ∈ token.complaints) :
    token.kind = .number ∧ diagnostic = ⟨token.line, .invalidNumber (token.lexeme.getD "")⟩ := by
  unfold complaints at member
  split at member
  · rename_i isNumber
    exact ⟨isNumber.1, List.mem_singleton.1 member⟩
  · simp at member

theorem located_of_mem_complaints
    {source : String} {token : Token} (member : token ∈ ofSource source)
    {diagnostic : Diagnostic} (complained : diagnostic ∈ token.complaints) :
    diagnostic.Located (1 + source.toList.count '\n') := by
  obtain ⟨isNumber, rfl⟩ := mem_complaints complained
  have goesOn : token.kind ≠ .endOfInput := by
    rw [isNumber]
    decide
  have spelling : '\n' ∉ (token.lexeme.getD "").toList :=
    (scanned_of_mem_ofSource member goesOn).isLexeme.not_mem_of_number isNumber
  apply token.located member
  change '\n' ∉ ("invalid number literal '" ++ token.lexeme.getD "" ++ "'").toList
  rw [String.toList_append, String.toList_append, List.mem_append, List.mem_append]
  rintro ((inFront | inSpelling) | inBehind)
  · exact absurd inFront (by decide)
  · exact spelling inSpelling
  · exact absurd inBehind (by decide)

theorem pairwise_complaints
    {tokens : List Token}
    (ordered : tokens.Pairwise fun earlier later => earlier.line ≤ later.line) :
    (tokens.flatMap complaints).Pairwise fun earlier later => earlier.line ≤ later.line := by
  rw [List.pairwise_flatMap]
  refine ⟨?_, ordered.imp ?_⟩
  · intro token _
    unfold complaints
    split
    · exact List.pairwise_singleton _ _
    · exact .nil
  · intro earlier later before first firstMember second secondMember
    obtain ⟨_, rfl⟩ := mem_complaints firstMember
    obtain ⟨_, rfl⟩ := mem_complaints secondMember
    exact before

end Token

theorem Groups.deepOpenings_sublist (limit : Nat) (groups : Groups) (tokens : List Token) :
    (groups.deepOpenings limit tokens).Sublist tokens := by
  induction tokens generalizing groups with
  | nil => exact .slnil
  | cons token rest ih =>
      rw [deepOpenings]
      split
      · exact (ih _).cons_cons token
      · exact (ih _).cons token

namespace Parses

variable {list : List Token} {position : Nat} {next : Token} {expr : Expr}
  {diagnostics : List Diagnostic}

/-- The parser complains about tokens in their order: about some that it has taken, and then
about the one in front of which it stops. -/
theorem exists_openings (parses : Parses list position next expr diagnostics) :
    ∃ openings count,
      (openings ++ [next]).Sublist list ∧
        diagnostics =
          openings.map (fun opening => ⟨opening.line, .nestedTooDeeply⟩) ++
            List.replicate count ⟨next.line, .unclosedGroup⟩ := by
  have within : 0 + Descent.maxNesting = 64 := rfl
  refine ⟨_, _, ?_, parses.reads.diagnostics_eq within⟩
  have front : list.take position ++ [next] = list.take (position + 1) := by
    rw [List.take_add_one, parses.atPosition, Option.toList_some]
  have openings := Groups.deepOpenings_sublist 64 ⟨0, 0⟩ (list.take position)
  have whole := openings.append_right [next]
  rw [front] at whole
  exact whole.trans (List.take_sublist _ _)

theorem pairwise_line_le
    (parses : Parses list position next expr diagnostics)
    (ordered : list.Pairwise fun earlier later => earlier.line ≤ later.line) :
    diagnostics.Pairwise fun earlier later => earlier.line ≤ later.line := by
  obtain ⟨openings, count, inList, rfl⟩ := parses.exists_openings
  obtain ⟨openingsOrdered, _, before⟩ := List.pairwise_append.1 (ordered.sublist inList)
  rw [List.pairwise_append]
  refine ⟨List.pairwise_map.2 openingsOrdered, ?_, ?_⟩
  · exact List.pairwise_replicate.2 (Or.inr (Int.le_refl _))
  · intro deep deepMember unclosed unclosedMember
    obtain ⟨opening, openingMember, rfl⟩ := List.mem_map.1 deepMember
    rw [List.eq_of_mem_replicate unclosedMember]
    exact before opening openingMember next (List.mem_singleton_self next)

theorem located
    {source : String}
    (parses : Parses (Token.ofSource source) position next expr diagnostics)
    {diagnostic : Diagnostic} (member : diagnostic ∈ diagnostics) :
    diagnostic.Located (1 + source.toList.count '\n') := by
  obtain ⟨openings, count, inList, rfl⟩ := parses.exists_openings
  rcases List.mem_append.1 member with isDeep | isUnclosed
  · obtain ⟨opening, openingMember, rfl⟩ := List.mem_map.1 isDeep
    exact opening.located (inList.subset (List.mem_append_left _ openingMember)) (by decide)
  · rw [List.eq_of_mem_replicate isUnclosed]
    exact next.located (inList.subset (by simp)) (by decide)

end Parses

theorem Report.error?_eq_none_iff (report : Report) :
    report.error? = none ↔ report.errors = [] := by
  rw [error?]
  split
  · exact iff_of_true rfl (List.isEmpty_iff.1 ‹_›)
  · exact iff_of_false nofun fun none => absurd (List.isEmpty_iff.2 none) ‹_›

theorem Report.split_error
    {report : Report} {error : String} (singleLines : ∀ line ∈ report.errors, '\n' ∉ line.toList)
    (joined : report.error? = some error) :
    (error.toList.splitOn '\n').map String.ofList = report.errors := by
  have notNil : report.errors ≠ [] := by
    intro isNil
    rw [report.error?_eq_none_iff.2 isNil] at joined
    cases joined
  rw [error?, if_neg (by simpa using notNil)] at joined
  injection joined with joined
  rw [← joined]
  exact Text.pieces_intercalate notNil singleLines

open Descent in
theorem Report.located_of_mem_diagnostics
    {source : String} {diagnostic : Diagnostic}
    (member : diagnostic ∈ (ofSource source).diagnostics) :
    diagnostic.Located (1 + source.toList.count '\n') := by
  obtain ⟨position, next, expr, diagnostics, parses⟩ := exists_parses (ended_ofSource source)
  rw [parses.ofSource_eq] at member
  rcases List.mem_append.1 member with inScan | inParser
  · rw [Token.diagnostics_ofSource] at inScan
    obtain ⟨token, tokenMember, complained⟩ := List.mem_flatMap.1 inScan
    exact token.located_of_mem_complaints tokenMember complained
  · exact parses.located inParser

open Descent in
/-- No message of a report holds a line feed. -/
theorem Report.not_mem_of_mem_errors
    {source error : String} (member : error ∈ (ofSource source).errors) :
    '\n' ∉ error.toList := by
  have faultless : (ofSource source).fault = none := by
    obtain ⟨_, _, _, _, parses⟩ := exists_parses (ended_ofSource source)
    rw [parses.ofSource_eq]
  rw [errors, faultless, Option.map_none, Option.toList_none, List.append_nil] at member
  obtain ⟨diagnostic, diagnosticMember, rfl⟩ := List.mem_map.1 member
  exact (located_of_mem_diagnostics diagnosticMember).singleLine

open Descent in
/-- Each message of a report names a line of the source text and has no line feed in it.  Those
of the scan are in the order of their lines, and those of the parser are.  The joined messages
are missing if and only if there are none, and can be split into the messages again. -/
theorem Report.exists_located (source : String) :
    ∃ answer descent,
      parse (ofTokens (Token.ofSource source)) = .ok answer descent ∧
        let report := ofSource source
        let scanned := (Scan.ofText source).tokens.2.diagnostics
        let parsed := descent.diagnostics
        report.errors = (scanned ++ parsed).map Diagnostic.message ∧
          (∀ diagnostic ∈ scanned ++ parsed,
            diagnostic.Located (1 + source.toList.count '\n')) ∧
          (scanned.Pairwise fun earlier later => earlier.line ≤ later.line) ∧
          (parsed.Pairwise fun earlier later => earlier.line ≤ later.line) ∧
          (report.error? = none ↔ report.errors = []) ∧
          ∀ error, report.error? = some error →
            (error.toList.splitOn '\n').map String.ofList = report.errors := by
  obtain ⟨position, next, expr, diagnostics, parses⟩ := exists_parses (ended_ofSource source)
  have ordered := Token.pairwise_line_ofSource source
  have errors :
      (ofSource source).errors =
        ((Scan.ofText source).tokens.2.diagnostics ++ diagnostics).map Diagnostic.message := by
    rw [parses.errors_ofSource, scanErrors, List.map_append]
  have located :
      ∀ diagnostic ∈ (Scan.ofText source).tokens.2.diagnostics ++ diagnostics,
        diagnostic.Located (1 + source.toList.count '\n') := by
    intro diagnostic member
    apply located_of_mem_diagnostics
    rw [parses.ofSource_eq]
    exact member
  refine ⟨_, _, parses.parse_eq, errors, located, ?_, parses.pairwise_line_le ordered,
    error?_eq_none_iff _, ?_⟩
  · rw [Token.diagnostics_ofSource]
    exact Token.pairwise_complaints ordered
  · intro error joined
    exact split_error (fun line member => not_mem_of_mem_errors member) joined

/-- A superscript that is no numeral, and a group that is still open on the next line. -/
theorem Report.located_unclosedNumber :
    let report := ofSource "(1²\n"
    let errors := ["line 1: invalid number literal '1²'", "line 2: expecting ')'"]
    report.errors = errors ∧
      Diagnostic.Located 2 ⟨1, .invalidNumber "1²"⟩ ∧
      report.error? = some ("\n".intercalate errors) ∧
      (("\n".intercalate errors).toList.splitOn '\n').map String.ofList = errors := by
  intro report errors
  have scanned :
      (Scan.ofText "(1²\n").tokens.2.diagnostics = [⟨1, .invalidNumber "1²"⟩] := by
    decide +kernel
  have shape :
      report.diagnostics = [⟨1, .invalidNumber "1²"⟩, ⟨2, .unclosedGroup⟩] ∧
        report.fault = none := by
    decide +kernel
  have messages : report.errors = errors := by
    rw [Report.errors, shape.1, shape.2]
    decide
  have joined : report.error? = some ("\n".intercalate errors) := by
    rw [error?, messages]
    rfl
  obtain ⟨_, _, _, _, located, _, _, _, split⟩ := exists_located "(1²\n"
  rw [scanned] at located
  exact ⟨messages, located _ List.mem_cons_self, joined, (split _ joined).trans messages⟩

end LoxSyntax
