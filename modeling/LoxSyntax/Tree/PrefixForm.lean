import LoxSyntax.Tree.Basic

/-!
# Prefix form

In prefix form every operator stands with its operands between parentheses, as in
`(+ 1 (* 2 3))`.  The form of a tree is described by recursion on the tree, `prefixForm`, and
computed without deep recursion by working off a list of pending items, `emitPrefixForm`.
-/

namespace LoxSyntax.Tree

variable {α ε : Type}

/-- The prefix form of a tree whose holes are shown by `showHole`.  The first hole from the
left that cannot be shown is the error. -/
def prefixForm (showHole : α → Except ε String) : Tree α → Except ε String
  | literal value => pure value.written
  | grouping inner => do
      let inner ← inner.prefixForm showHole
      pure ("(group " ++ inner ++ ")")
  | unary operator right => do
      let right ← right.prefixForm showHole
      pure ("(" ++ operatorText operator ++ " " ++ right ++ ")")
  | binary left operator right => do
      let left ← left.prefixForm showHole
      let right ← right.prefixForm showHole
      pure ("(" ++ operatorText operator ++ " " ++ left ++ " " ++ right ++ ")")
  | empty => pure "<empty>"
  | hole content => showHole content

/-- What is still to be written: a text as it is, or a tree. -/
inductive Pending (α : Type) where
  | text (content : String)
  | node (tree : Tree α)

/-- The work that an item takes. -/
def Pending.work : Pending α → Nat
  | text _ => 1
  | node tree => 5 * tree.size

/-- Writes the pending items behind what has been written. -/
def emitPrefixForm (showHole : α → Except ε String) (written : String) :
    List (Pending α) → Except ε String
  | [] => pure written
  | .text content :: items => emitPrefixForm showHole (written ++ content) items
  | .node (literal value) :: items => emitPrefixForm showHole (written ++ value.written) items
  | .node (grouping inner) :: items =>
      emitPrefixForm showHole written (.text "(group " :: .node inner :: .text ")" :: items)
  | .node (unary operator right) :: items =>
      emitPrefixForm showHole written
        (.text ("(" ++ operatorText operator ++ " ") :: .node right :: .text ")" :: items)
  | .node (binary left operator right) :: items =>
      emitPrefixForm showHole written
        (.text ("(" ++ operatorText operator ++ " ") :: .node left :: .text " " ::
          .node right :: .text ")" :: items)
  | .node empty :: items => emitPrefixForm showHole (written ++ "<empty>") items
  | .node (hole content) :: items => do
      let text ← showHole content
      emitPrefixForm showHole (written ++ text) items
termination_by items => items.foldr (fun item work => item.work + work) 0
decreasing_by
  all_goals
    simp only [List.foldr_cons, Pending.work, size]
    omega

/-- The prefix form of a tree, computed by working off its nodes. -/
def toPrefixForm (showHole : α → Except ε String) (tree : Tree α) : Except ε String :=
  emitPrefixForm showHole "" [.node tree]

end Tree

/-- A hole in prefix form: a text is shown as it is. -/
def Hole.inPrefixForm : Hole → Except UnknownNode String
  | text content => pure content
  | nothing => throw ⟨Hole.nothing.inspected⟩

def Sketch.prefixText (sketch : Sketch) : Except UnknownNode String :=
  sketch.toPrefixForm Hole.inPrefixForm

def Expr.prefixText (expr : Expr) : String :=
  match expr.toPrefixForm fun hole : Empty => (hole.elim : Except Empty String) with
  | .ok text => text
  | .error impossible => impossible.elim

end LoxSyntax
