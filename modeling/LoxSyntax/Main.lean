import LoxSyntax.Command.Session

/-!
# The command

Reads files and standard input, and prints what the session says.
-/

namespace LoxSyntax.Command

/-- The code of the system error for a directory in the place of a file. -/
def isDirectoryCode : UInt32 := 21

def readSource (path : Path) : IO (Except FileFault String) := do
  if let some fault := path.fault? then return .error fault
  try
    return Disk.decode (← IO.FS.readBinFile path.text)
  catch
    | .noFileOrDirectory .. => return .error .notFound
    | .inappropriateType _ code _ =>
        return .error (if code = isDirectoryCode then .isDirectory else .notDirectory)
    | fault => throw fault

def printAll (printed : Printed) : IO Unit := do
  let output ← IO.getStdout
  output.putStr printed.output
  output.flush
  IO.eprint printed.errors

/-- The message for a source file that cannot be read. -/
def faultMessage : FileFault → String
  | .notFound => "no such file"
  | .notDirectory => "not a directory"
  | .isDirectory => "is a directory"
  | .notText => "not UTF-8 text"
  | .tooLong => "name too long"
  | .nulInPath => "NUL in path"

def printTranscript (transcript : Transcript) : IO UInt32 := do
  printAll transcript.printed
  match transcript.ending with
  | .exit status => return status.toUInt32
  | .fault fault =>
      IO.eprintln (faultMessage fault)
      return 1

/-- Answers what is read from a stream, chunk by chunk, until a line asks to leave or nothing is
left. -/
partial def answerStream (options : Options) (input : IO.FS.Stream) : IO Unit := do
  let chunk ← input.getLine
  if chunk.isEmpty then
    printAll (options.answerChunks [])
  else
    let (printed, goesOn) := options.answerChunk chunk
    printAll printed
    if goesOn then answerStream options input

/-- Reads expressions from a stream and answers each of them at once. -/
def interact (options : Options) (input : IO.FS.Stream) : IO Unit := do
  printAll ⟨prompt, ""⟩
  answerStream options input

def run (arguments : List String) : IO UInt32 := do
  match Options.ofArguments arguments with
  | .error stop => printTranscript stop.transcript
  | .ok options =>
      match options.source with
      | some path =>
          let source ← readSource path
          printTranscript (options.fileTranscript path source)
      | none =>
          interact options (← IO.getStdin)
          return 0

end LoxSyntax.Command

def main (arguments : List String) : IO UInt32 :=
  LoxSyntax.Command.run arguments
