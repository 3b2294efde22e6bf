import LoxSyntax.Command.Usage
import LoxSyntax.Text.Digit

/-!
# Arguments

Before anything is done, every argument is classified: as an option, as a word, or as the
separator `--` behind which there are only words.

* A long name may be shortened as long as no other one begins the same way.
* A value may follow the name of an option after an equals sign; behind a short name it may
  also follow directly.
* A dash alone, a negative number and a text with a space that names no option are words.
-/

namespace LoxSyntax.Command

inductive Argument where
  | word (text : String)
  | separator
  /-- An option, with the value that is written into the same argument. -/
  | flag (flag : Flag) (isShort : Bool) (value : Option String)
  /-- A text that looks like an option but names none. -/
  | unknown (text : String)
deriving DecidableEq, Repr

namespace Argument

/-- Whether a text is a run of decimal digits with at most one point in it, and ends with a
digit. -/
def isPlainNumber (text : List Char) : Bool :=
  match text.dropWhile Text.isDecimalDigit with
  | [] => !text.isEmpty
  | '.' :: fraction => !fraction.isEmpty && fraction.all Text.isDecimalDigit
  | _ => false

/-- Whether a text is a negative number.  A line feed may follow it. -/
def isNegativeNumber : List Char → Bool
  | '-' :: number =>
      isPlainNumber number || (number.getLast? = some '\n' && isPlainNumber number.dropLast)
  | _ => false

/-- The name in front of the first equals sign and the value behind it, if there is one. -/
def splitValue (text : List Char) : String × Option String :=
  match text.span (· ≠ '=') with
  | (name, []) => (String.ofList name, none)
  | (name, _ :: value) => (String.ofList name, some (String.ofList value))

/-- The options that a text may stand for which is not the exact name of one. -/
def candidates (text : List Char) : List (String × Argument) :=
  match text with
  | '-' :: '-' :: _ =>
      let (name, value) := splitValue text
      (Flag.names.filter fun named => name.toList.isPrefixOf named.1.toList).map
        fun named => (named.1, flag named.2 false value)
  | '-' :: 'h' :: value => [("-h", flag .help true (some (String.ofList value)))]
  | _ => []

def classifyOne (text : String) : Except UsageError Argument :=
  let characters := text.toList
  let (name, value) := splitValue characters
  if characters.head? ≠ some '-' ∨ text = "-" then .ok (word text)
  else match Flag.names.lookup text, Flag.names.lookup name with
    | some named, _ => .ok (flag named (text = "-h") none)
    | none, some named => .ok (flag named (name = "-h") value)
    | none, none =>
        match candidates characters with
        | [] =>
            if isNegativeNumber characters ∨ ' ' ∈ characters then .ok (word text)
            else .ok (unknown text)
        | [(_, argument)] => .ok argument
        | several => .error (.ambiguous text (several.map Prod.fst))

/-- Classifies all arguments.  The first ambiguous one is an error. -/
def classify : List String → Except UsageError (List Argument)
  | [] => .ok []
  | text :: texts =>
      if text = "--" then .ok (separator :: texts.map word)
      else do
        let argument ← classifyOne text
        let arguments ← classify texts
        return argument :: arguments

end Argument

end LoxSyntax.Command
