import LoxSyntax.Command.Options
import LoxSyntax.Report
import LoxSyntax.Source.Disk
import LoxSyntax.Tree.Outline
import LoxSyntax.Tree.PrefixForm

/-!
# Sessions

A call either reports on one source file, or reads expressions line by line and reports on each
of them until the input ends or a line asks to leave.  What it prints is its transcript.
-/

namespace LoxSyntax.Command

inductive Ending where
  | exit (status : Nat)
  /-- The source file exists but cannot be read. -/
  | fault (fault : FileFault)
deriving DecidableEq, Repr

/-- What is printed: results and, apart from them, errors. -/
structure Printed where
  output : String
  errors : String
deriving DecidableEq, Repr

def Printed.nothing : Printed := ⟨"", ""⟩

def Printed.append (first second : Printed) : Printed :=
  ⟨first.output ++ second.output, first.errors ++ second.errors⟩

instance : Append Printed := ⟨Printed.append⟩

/-- Everything that a call prints, and how it ends. -/
structure Transcript where
  printed : Printed
  ending : Ending
deriving DecidableEq, Repr

def TreeForm.show : TreeForm → Expr → String
  | prefixForm, expr => expr.prefixText
  | outline, expr => expr.outlineText

/-- The results of a report that the options ask for. -/
def Options.output (options : Options) (report : Report) : String :=
  (if options.showTokens then Token.listing report.tokens ++ "\n" else "") ++
    (match report.expr with
      | some expr => if options.hideTree then "" else options.treeForm.show expr ++ "\n"
      | none => "")

/-- The errors of a report, a line each. -/
def errorLines (report : Report) : String :=
  String.join (report.errors.map fun error => "Error: " ++ error ++ "\n")

def Options.printed (options : Options) (report : Report) : Printed :=
  ⟨options.output report, errorLines report⟩

/-- The transcript of a call for a source file, given the outcome of reading it.  A path to
which no file can belong is reported like a missing file. -/
def Options.fileTranscript (options : Options) (path : Path) :
    Except FileFault String → Transcript
  | .ok source =>
      let report := Report.ofSource source
      ⟨options.printed report, .exit (if report.success then 0 else 1)⟩
  | .error .notFound | .error .notDirectory | .error .nulInPath =>
      ⟨⟨"", "Error: Source file '" ++ path.text ++ "' not found\n"⟩, .exit 1⟩
  | .error fault => ⟨.nothing, .fault fault⟩

/-- What is printed in front of every line that is read. -/
def prompt : String := "> "

/-- The answer to a line, or nothing if the line asks to leave.  A blank line has an empty
answer. -/
def Options.reply? (options : Options) (line : List Char) : Option Printed :=
  let word := String.ofList (Text.trimBlanks line)
  if word = "exit" ∨ word = "quit" then none
  else if word = "" then some .nothing
  else some (options.printed (Report.ofSource (String.ofList line)))

/-- What a session prints while it reads the given lines. -/
def Options.session (options : Options) : List (List Char) → Printed
  | [] => ⟨prompt ++ "\n", ""⟩
  | line :: lines =>
      match options.reply? line with
      | none => ⟨prompt, ""⟩
      | some answer => ⟨prompt, ""⟩ ++ answer ++ session options lines

/-- The answers to some lines with a prompt behind each of them, up to the first line that asks to
leave; and whether the session goes on behind them. -/
def Options.answers (options : Options) : List (List Char) → Printed × Bool
  | [] => (.nothing, true)
  | line :: lines =>
      match options.reply? line with
      | none => (.nothing, false)
      | some answer =>
          let (printed, goesOn) := answers options lines
          (answer ++ ⟨prompt, ""⟩ ++ printed, goesOn)

/-- The answers to what is read up to a line feed.  Carriage returns may end lines in it. -/
def Options.answerChunk (options : Options) (chunk : String) : Printed × Bool :=
  options.answers (Text.lines (Text.unifyLineEnds chunk.toList))

/-- What a session prints behind its first prompt while it reads its input chunk by chunk. -/
def Options.answerChunks (options : Options) : List String → Printed
  | [] => ⟨"\n", ""⟩
  | chunk :: chunks =>
      let (printed, goesOn) := options.answerChunk chunk
      if goesOn then printed ++ answerChunks options chunks else printed

/-- The transcript of a call that reads expressions from the given input. -/
def Options.sessionTranscript (options : Options) (input : String) : Transcript :=
  ⟨options.session (Text.lines (Text.unifyLineEnds input.toList)), .exit 0⟩

/-- The transcript of a call that ends before it does any work. -/
def Stop.transcript : Stop → Transcript
  | help => ⟨⟨Command.help, ""⟩, .exit 0⟩
  | misuse error => ⟨⟨"", error.message⟩, .exit 2⟩

/-- The transcript of a call with the given arguments, where `read` reads source files and
`input` is what there is to read line by line. -/
def transcript (read : Path → Except FileFault String) (arguments : List String)
    (input : String) : Transcript :=
  match Options.ofArguments arguments with
  | .error stop => stop.transcript
  | .ok options =>
      match options.source with
      | some path => options.fileTranscript path (read path)
      | none => options.sessionTranscript input

end LoxSyntax.Command
