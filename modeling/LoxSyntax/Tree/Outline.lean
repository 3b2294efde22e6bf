import LoxSyntax.Tree.Basic

/-!
# Outlines

An outline shows a tree with one node per line, every node before its operands and these
indented by two more blanks.  The outline is described by recursion on the tree, `outline`,
and computed without deep recursion by working off a list of pending nodes, `emitOutline`.
-/

namespace LoxSyntax.Tree

variable {α ε : Type}

/-- The line of a node at a level.  Below level zero there is no indentation. -/
def outlineLine (level : Int) (label : String) : String :=
  String.ofList (List.replicate (2 * level.toNat) ' ') ++ label

/-- The lines of the outline of a tree whose root is at the given level.  The first hole from
the left that cannot be shown is the error. -/
def outline (showHole : α → Except ε String) (level : Int) : Tree α → Except ε (List String)
  | literal value => pure [outlineLine level ("Literal " ++ value.written)]
  | grouping inner => do
      let inner ← inner.outline showHole (level + 1)
      pure (outlineLine level "Grouping" :: inner)
  | unary operator right => do
      let right ← right.outline showHole (level + 1)
      pure (outlineLine level ("Unary " ++ operatorText operator) :: right)
  | binary left operator right => do
      let left ← left.outline showHole (level + 1)
      let right ← right.outline showHole (level + 1)
      pure (outlineLine level ("Binary " ++ operatorText operator) :: (left ++ right))
  | empty => pure [outlineLine level "Empty"]
  | hole content => do
      let label ← showHole content
      pure [outlineLine level label]

/-- Adds the lines of the pending nodes, each at its level, to the lines so far, of which the
latest comes first. -/
def emitOutline (showHole : α → Except ε String) (lines : List String) :
    List (Int × Tree α) → Except ε (List String)
  | [] => pure lines.reverse
  | (level, literal value) :: items =>
      emitOutline showHole (outlineLine level ("Literal " ++ value.written) :: lines) items
  | (level, grouping inner) :: items =>
      emitOutline showHole (outlineLine level "Grouping" :: lines)
        ((level + 1, inner) :: items)
  | (level, unary operator right) :: items =>
      emitOutline showHole (outlineLine level ("Unary " ++ operatorText operator) :: lines)
        ((level + 1, right) :: items)
  | (level, binary left operator right) :: items =>
      emitOutline showHole (outlineLine level ("Binary " ++ operatorText operator) :: lines)
        ((level + 1, left) :: (level + 1, right) :: items)
  | (level, empty) :: items => emitOutline showHole (outlineLine level "Empty" :: lines) items
  | (level, hole content) :: items => do
      let label ← showHole content
      emitOutline showHole (outlineLine level label :: lines) items
termination_by items => items.foldr (fun item work => item.2.size + work) 0
decreasing_by
  all_goals
    simp only [List.foldr_cons, size]
    omega

/-- The lines of the outline of a tree, computed by working off its nodes. -/
def toOutline (showHole : α → Except ε String) (level : Int) (tree : Tree α) :
    Except ε (List String) :=
  emitOutline showHole [] [(level, tree)]

end Tree

/-- The outline of a sketch from the given level on.  No hole can be shown. -/
def Sketch.outlineText (sketch : Sketch) (level : Int) : Except UnknownNode String := do
  let lines ← sketch.toOutline (fun hole => throw ⟨hole.inspected⟩) level
  pure ("\n".intercalate lines)

/-- The lines of the outline of an expression from the given level on. -/
def Expr.outlineLines (expr : Expr) (level : Int) : List String :=
  match expr.toOutline (fun hole : Empty => (hole.elim : Except Empty String)) level with
  | .ok lines => lines
  | .error impossible => impossible.elim

def Expr.outlineText (expr : Expr) : String :=
  "\n".intercalate (expr.outlineLines 0)

end LoxSyntax
