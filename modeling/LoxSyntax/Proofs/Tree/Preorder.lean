import LoxSyntax.Proofs.Tree.Pending

/-!
# The nodes of a tree

The nodes of a tree come in an order, every node in front of its operands and these from left to
right, and each of them has a depth (`preorder`).

The lines of an outline describe the nodes in this order (`outline_eq`), and the prefix form is
put together from those of the operands (`prefixForm_eq`), unless there is a hole that cannot be
shown.  Then the error is that of the first such hole (`refusal?_eq_some_iff`).
-/

namespace LoxSyntax.Tree

variable {α ε : Type}

/-- Nodes with their depths, as they are below one more node. -/
def deeper (nodes : List (Nat × Tree α)) : List (Nat × Tree α) :=
  nodes.map fun node => (node.1 + 1, node.2)

/-- The nodes of a tree, each with the number of nodes that it stands below.  A node comes in
front of its operands, and the nodes of the left operand come in front of those of the right. -/
def preorder : Tree α → List (Nat × Tree α)
  | literal value => [(0, literal value)]
  | grouping inner => (0, grouping inner) :: deeper inner.preorder
  | unary operator right => (0, unary operator right) :: deeper right.preorder
  | binary left operator right =>
      (0, binary left operator right) :: (deeper left.preorder ++ deeper right.preorder)
  | empty => [(0, empty)]
  | hole content => [(0, hole content)]

theorem length_preorder (tree : Tree α) : tree.preorder.length = tree.size := by
  induction tree with
  | literal | empty | hole => rfl
  | grouping inner ih => simp [preorder, deeper, size, ih]
  | unary operator right ih => simp [preorder, deeper, size, ih]
  | binary left operator right leftIh rightIh => simp [preorder, deeper, size, leftIh, rightIh]

theorem preorder_ne_nil (tree : Tree α) : tree.preorder ≠ [] := by
  cases tree <;> exact List.cons_ne_nil _ _

/-- The content of a node that is a hole. -/
def content? : Tree α → Option α
  | hole content => some content
  | literal _ | grouping _ | unary _ _ | binary _ _ _ | empty => none

/-- The contents of the holes among some nodes. -/
def contents (nodes : List (Nat × Tree α)) : List α :=
  nodes.filterMap fun node => node.2.content?

/-- The contents of the holes of a tree, in the order of its nodes. -/
def holes (tree : Tree α) : List α :=
  contents tree.preorder

theorem contents_deeper (nodes : List (Nat × Tree α)) :
    contents (deeper nodes) = contents nodes := by
  rw [contents, deeper, List.filterMap_map]
  rfl

section Equations

variable (operator : Token) (inner left right : Tree α) (content : α)

theorem holes_grouping : (grouping inner).holes = inner.holes :=
  contents_deeper inner.preorder

theorem holes_unary : (unary operator right).holes = right.holes :=
  contents_deeper right.preorder

theorem holes_binary : (binary left operator right).holes = left.holes ++ right.holes := by
  have operands :
      (binary left operator right).holes =
        contents (deeper left.preorder ++ deeper right.preorder) :=
    rfl
  rw [operands, contents, List.filterMap_append, ← contents, ← contents, contents_deeper,
    contents_deeper]
  rfl

theorem holes_hole : (hole content).holes = [content] :=
  rfl

end Equations

/-- The error of a content that cannot be shown. -/
def error? (showHole : α → Except ε String) (content : α) : Option ε :=
  match showHole content with
  | .ok _ => none
  | .error error => some error

/-- The error of the first content of a list that cannot be shown. -/
def refusal? (showHole : α → Except ε String) (contents : List α) : Option ε :=
  contents.findSome? (error? showHole)

section Refusals

variable {showHole : α → Except ε String} {content : α} {contents : List α} {error : ε}

theorem error?_eq_some_iff :
    error? showHole content = some error ↔ showHole content = .error error := by
  unfold error?
  cases showHole content <;> simp

theorem error?_eq_none_iff :
    error? showHole content = none ↔ ∃ text, showHole content = .ok text := by
  unfold error?
  cases showHole content <;> simp

/-- The error is that of a content behind others that can be shown. -/
theorem refusal?_eq_some_iff :
    refusal? showHole contents = some error ↔
      ∃ before content later,
        contents = before ++ content :: later ∧
          showHole content = .error error ∧
          ∀ earlier ∈ before, ∃ text, showHole earlier = .ok text := by
  simp only [refusal?, List.findSome?_eq_some_iff, error?_eq_some_iff, error?_eq_none_iff]

theorem refusal?_eq_none_iff :
    refusal? showHole contents = none ↔
      ∀ content ∈ contents, ∃ text, showHole content = .ok text := by
  simp only [refusal?, List.findSome?_eq_none_iff, error?_eq_none_iff]

theorem refusal?_singleton : refusal? showHole [content] = error? showHole content := by
  rw [refusal?, List.findSome?_singleton]

theorem refusal?_append (firsts seconds : List α) :
    refusal? showHole (firsts ++ seconds) =
      (refusal? showHole firsts).or (refusal? showHole seconds) :=
  List.findSome?_append

end Refusals

/-- What is shown, unless an error prevents it. -/
def unlessRefused {β : Type} (refusal : Option ε) (shown : β) : Except ε β :=
  match refusal with
  | none => .ok shown
  | some error => .error error

theorem unlessRefused_eq_ok_iff {β : Type} {refusal : Option ε} {shown answer : β} :
    unlessRefused refusal shown = .ok answer ↔ refusal = none ∧ answer = shown := by
  cases refusal with
  | none => simp [unlessRefused, eq_comm]
  | some error => simp [unlessRefused]

theorem unlessRefused_eq_error_iff {β : Type} {refusal : Option ε} {shown : β} {error : ε} :
    unlessRefused refusal shown = .error error ↔ refusal = some error := by
  cases refusal <;> simp [unlessRefused]

/-- `Shows showHole shown` when a content that can be shown is shown as `shown` says. -/
def Shows (showHole : α → Except ε String) (shown : α → String) : Prop :=
  ∀ content, showHole content = unlessRefused (error? showHole content) (shown content)

/-- The prefix form of a tree, given the texts of its holes. -/
def rendering (shown : α → String) : Tree α → String
  | literal value => value.written
  | grouping inner => "(group " ++ inner.rendering shown ++ ")"
  | unary operator right =>
      "(" ++ operator.lexeme.getD "None" ++ " " ++ right.rendering shown ++ ")"
  | binary left operator right =>
      "(" ++ operator.lexeme.getD "None" ++ " " ++ left.rendering shown ++ " " ++
        right.rendering shown ++ ")"
  | empty => "<empty>"
  | hole content => shown content

/-- What describes a node in an outline, given the texts of the holes. -/
def label (shown : α → String) : Tree α → String
  | literal value => "Literal " ++ value.written
  | grouping _ => "Grouping"
  | unary operator _ => "Unary " ++ operator.lexeme.getD "None"
  | binary _ operator _ => "Binary " ++ operator.lexeme.getD "None"
  | empty => "Empty"
  | hole content => shown content

/-- The line that describes a node at its depth, with the root at the given level: two blanks for
each level above zero, and the label. -/
def nodeLine (shown : α → String) (level : Int) (node : Nat × Tree α) : String :=
  String.ofList (List.replicate (2 * (max 0 (level + node.1)).toNat) ' ') ++ node.2.label shown

theorem nodeLine_root (shown : α → String) (level : Int) (tree : Tree α) :
    nodeLine shown level (0, tree) = outlineLine level (tree.label shown) := by
  have sameBlanks : (max 0 (level + (0 : Nat))).toNat = level.toNat := by omega
  rw [nodeLine, outlineLine, sameBlanks]

/-- The nodes below the root are described like those of an operand one level deeper. -/
theorem map_nodeLine_deeper (shown : α → String) (level : Int) (nodes : List (Nat × Tree α)) :
    (deeper nodes).map (nodeLine shown level) = nodes.map (nodeLine shown (level + 1)) := by
  rw [deeper, List.map_map]
  apply List.map_congr_left
  intro node _
  have sameLevel : level + ((node.1 + 1 : Nat) : Int) = level + 1 + node.1 := by omega
  simp only [Function.comp_apply, nodeLine, sameLevel]

section Forms

variable {showHole : α → Except ε String} {shown : α → String} (shows : Shows showHole shown)

include shows

/-- The prefix form of a tree is its rendering, unless a hole cannot be shown. -/
theorem prefixForm_eq (tree : Tree α) :
    tree.prefixForm showHole =
      unlessRefused (refusal? showHole tree.holes) (tree.rendering shown) := by
  induction tree with
  | literal | empty => rfl
  | grouping inner ih =>
      rw [prefixForm, ih, holes_grouping]
      cases refusal? showHole inner.holes <;> rfl
  | unary operator right ih =>
      rw [prefixForm, ih, holes_unary]
      cases refusal? showHole right.holes <;> rfl
  | binary left operator right leftIh rightIh =>
      rw [prefixForm, leftIh, rightIh, holes_binary, refusal?_append]
      cases refusal? showHole left.holes <;> cases refusal? showHole right.holes <;> rfl
  | hole content =>
      rw [prefixForm, holes_hole, refusal?_singleton]
      exact shows content

/-- The outline of a tree describes its nodes in their order, unless a hole cannot be shown. -/
theorem outline_eq (tree : Tree α) (level : Int) :
    tree.outline showHole level =
      unlessRefused (refusal? showHole tree.holes) (tree.preorder.map (nodeLine shown level)) := by
  induction tree generalizing level with
  | literal | empty =>
      simp only [outline, preorder, List.map_cons, nodeLine_root]
      rfl
  | grouping inner ih =>
      rw [outline, ih, holes_grouping, preorder, List.map_cons, nodeLine_root,
        map_nodeLine_deeper]
      cases refusal? showHole inner.holes <;> rfl
  | unary operator right ih =>
      rw [outline, ih, holes_unary, preorder, List.map_cons, nodeLine_root, map_nodeLine_deeper]
      cases refusal? showHole right.holes <;> rfl
  | binary left operator right leftIh rightIh =>
      rw [outline, leftIh, rightIh, holes_binary, refusal?_append, preorder, List.map_cons,
        List.map_append, nodeLine_root, map_nodeLine_deeper, map_nodeLine_deeper]
      cases refusal? showHole left.holes <;> cases refusal? showHole right.holes <;> rfl
  | hole content =>
      rw [outline, holes_hole, refusal?_singleton, shows content, preorder, List.map_cons,
        nodeLine_root]
      cases error? showHole content <;> rfl

end Forms

end LoxSyntax.Tree

namespace LoxSyntax.Expr

open LoxSyntax.Tree

/-- The lines of the outline of an expression describe its nodes in their order. -/
theorem outlineLines_eq (expr : Expr) (level : Int) :
    expr.outlineLines level = expr.preorder.map (nodeLine Empty.elim level) := by
  have shows : Shows (fun hole : Empty => (hole.elim : Except Empty String)) Empty.elim :=
    fun hole => hole.elim
  have unrefused :
      refusal? (fun hole : Empty => (hole.elim : Except Empty String)) expr.holes = none :=
    refusal?_eq_none_iff.2 fun hole => hole.elim
  have outline := Tree.outline_eq shows expr level
  rw [Expr.outline_eq, unrefused] at outline
  exact Except.ok.inj outline

end LoxSyntax.Expr
