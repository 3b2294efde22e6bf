import LoxSyntax.Command.Argument
import LoxSyntax.Source.Path

/-!
# Options of a call

The classified arguments take effect from left to right.  The first word names the source; all
further words and unknown options are refused at the end.
-/

namespace LoxSyntax.Command

inductive TreeForm where
  | prefixForm
  | outline
deriving DecidableEq, Repr

structure Options where
  /-- The source file; without one, expressions are read line by line. -/
  source : Option Path
  showTokens : Bool
  treeForm : TreeForm
  hideTree : Bool
deriving DecidableEq, Repr

/-- Why a call ends before it does any work. -/
inductive Stop where
  | help
  | misuse (error : UsageError)
deriving DecidableEq, Repr

namespace Options

/-- What a call without arguments asks for. -/
def default : Options where
  source := none
  showTokens := false
  treeForm := .prefixForm
  hideTree := false

structure Progress where
  options : Options
  /-- Whether the place of the source has been passed. -/
  hasSource : Bool
  refused : List String
deriving DecidableEq, Repr

/-- Chooses the form of the tree.  The separator as a value stands for no choice. -/
def chooseForm (options : Options) (value : String) : Except Stop Options :=
  if value = "sexpr" ∨ value = "--" then .ok { options with treeForm := .prefixForm }
  else if value = "dump" then .ok { options with treeForm := .outline }
  else .error (.misuse (.unknownForm value))

/-- A short option without a value may be repeated behind itself; anything else that follows it
is a value that it does not take. -/
def unexpectedValue? (isShort : Bool) (value : String) : Option String :=
  let further := value.toList.dropWhile (· = 'h')
  if isShort ∧ value ≠ "" then
    if further.isEmpty then none else some (String.ofList further)
  else some value

/-- The effect of an option other than the choice of a form. -/
def applyFlag (options : Options) : Flag → Except Stop Options
  | .help => .error .help
  | .tokens => .ok { options with showTokens := true }
  | .noTree => .ok { options with hideTree := true }
  | .tree => .error (.misuse (.missingValue .tree))

/-- Notes the source unless there is one already. -/
def takeWord (progress : Progress) (text : String) : Progress :=
  if progress.hasSource then { progress with refused := progress.refused ++ [text] }
  else
    { progress with
      hasSource := true
      options := { progress.options with source := some (Path.ofText text) } }

def apply (progress : Progress) : List Argument → Except Stop Progress
  | [] => .ok progress
  | .flag .tree _ (some value) :: rest => do
      let options ← progress.options.chooseForm value
      apply { progress with options := options } rest
  | .flag .tree _ none :: .word value :: rest => do
      let options ← progress.options.chooseForm value
      apply { progress with options := options } rest
  | .flag flag isShort value :: rest => do
      match value.bind (unexpectedValue? isShort) with
      | some unexpected => .error (.misuse (.unexpectedValue flag unexpected))
      | none =>
          let options ← progress.options.applyFlag flag
          apply { progress with options := options } rest
  | .unknown text :: rest =>
      apply { progress with refused := progress.refused ++ [text] } rest
  | .word text :: .separator :: rest =>
      apply (if progress.hasSource then
          { progress with refused := progress.refused ++ [text, "--"] }
        else takeWord progress text) rest
  | .word text :: rest => apply (takeWord progress text) rest
  | .separator :: rest =>
      apply (if progress.hasSource then
          { progress with refused := progress.refused ++ ["--"] }
        else progress) rest

/-- What a call with the given arguments asks for. -/
def ofArguments (arguments : List String) : Except Stop Options := do
  let arguments ← (Argument.classify arguments).mapError .misuse
  let progress ← apply ⟨default, false, []⟩ arguments
  if progress.refused.isEmpty then return progress.options
  else throw (.misuse (.unrecognized progress.refused))

end Options

end LoxSyntax.Command
