import LoxSyntax.Text.Quoted

/-!
# Usage

The texts that explain how the command is called, and the errors in a call.
-/

namespace LoxSyntax.Command

inductive Flag where
  | help | tokens | tree | noTree
deriving DecidableEq, Repr

namespace Flag

/-- The short name and the long name of each option, in the order of the help text. -/
def names : List (String × Flag) :=
  [("-h", help), ("--help", help), ("--tokens", tokens), ("--tree", tree),
    ("--no-tree", noTree)]

/-- An option as it is named in error texts. -/
def label : Flag → String
  | help => "-h/--help"
  | tokens => "--tokens"
  | tree => "--tree"
  | noTree => "--no-tree"

end Flag

/-- The line that shows the form of a call. -/
def usage : String :=
  "usage: lox [-h] [--tokens] [--tree \x7bsexpr,dump\x7d] [--no-tree] [source]\n"

def help : String :=
  usage ++
  "\n" ++
  "Scan and parse Lox expressions, printing the tokens and syntax tree\n" ++
  "\n" ++
  "positional arguments:\n" ++
  "  source               Source file to parse (omit for an interactive prompt)\n" ++
  "\n" ++
  "options:\n" ++
  "  -h, --help           show this help message and exit\n" ++
  "  --tokens             Print the token list\n" ++
  "  --tree \x7bsexpr,dump\x7d  Tree format: parenthesized prefix form or indented dump\n" ++
  "                       (default: sexpr)\n" ++
  "  --no-tree            Do not print the syntax tree\n"

inductive UsageError where
  /-- A shortened name that several options begin with. -/
  | ambiguous (argument : String) (candidates : List String)
  /-- An option without the value that it needs. -/
  | missingValue (flag : Flag)
  /-- A value for an option that takes none. -/
  | unexpectedValue (flag : Flag) (value : String)
  /-- A form of the tree that does not exist. -/
  | unknownForm (value : String)
  /-- Arguments that mean nothing. -/
  | unrecognized (arguments : List String)
deriving DecidableEq, Repr

namespace UsageError

def description : UsageError → String
  | ambiguous argument candidates =>
      "ambiguous option: " ++ argument ++ " could match " ++ ", ".intercalate candidates
  | missingValue flag => "argument " ++ flag.label ++ ": expected one argument"
  | unexpectedValue flag value =>
      "argument " ++ flag.label ++ ": ignored explicit argument " ++ Text.quoted value
  | unknownForm value =>
      "argument --tree: invalid choice: " ++ Text.quoted value ++
        " (choose from 'sexpr', 'dump')"
  | unrecognized arguments => "unrecognized arguments: " ++ " ".intercalate arguments

def message (error : UsageError) : String :=
  usage ++ "lox: error: " ++ error.description ++ "\n"

end UsageError

end LoxSyntax.Command
