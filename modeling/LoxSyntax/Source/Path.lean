/-!
# Paths

A path is a root and a list of parts.  Empty parts and parts that stay in the same directory
are dropped; steps to the parent directory are kept.
-/

namespace LoxSyntax

structure Path where
  /-- The slashes in front: none for a relative path.  Two slashes are a root of their own. -/
  root : String
  parts : List String
deriving DecidableEq, Repr

namespace Path

/-- The parts between slashes, empty ones included. -/
def split : List Char → List (List Char)
  | [] => [[]]
  | character :: rest =>
      if character = '/' then [] :: split rest
      else match split rest with
        | [] => [[character]]
        | part :: parts => (character :: part) :: parts

/-- The root that a text begins with. -/
def rootOf : List Char → String
  | '/' :: '/' :: '/' :: _ => "/"
  | '/' :: '/' :: _ => "//"
  | '/' :: _ => "/"
  | _ => ""

def ofText (text : String) : Path where
  root := rootOf text.toList
  parts := ((split text.toList).map String.ofList).filter fun part => part ≠ "" ∧ part ≠ "."

def text (path : Path) : String :=
  let shown := path.root ++ "/".intercalate path.parts
  if shown = "" then "." else shown

end Path

end LoxSyntax
