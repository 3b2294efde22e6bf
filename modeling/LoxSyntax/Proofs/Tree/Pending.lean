import LoxSyntax.Tree.Outline
import LoxSyntax.Tree.PrefixForm

/-!
# Working off pending nodes

A tree that is pending is worked off as the recursion on trees describes it, before anything
behind it is looked at (`emitPrefixForm_node`, `emitOutline_cons`).  So the two ways to show a
tree agree, on trees with holes that cannot be shown as well.

An expression has no holes, and each form of it is made of those of its operands.
-/

namespace LoxSyntax.Tree

variable {α ε : Type}

/-- A pending tree is written in prefix form behind what has been written. -/
theorem emitPrefixForm_node
    (showHole : α → Except ε String) (tree : Tree α) (written : String)
    (items : List (Pending α)) :
    emitPrefixForm showHole written (.node tree :: items) =
      (do
        let text ← tree.prefixForm showHole
        emitPrefixForm showHole (written ++ text) items) := by
  induction tree generalizing written items with
  | literal value => simp [emitPrefixForm, prefixForm]
  | grouping inner ih =>
      simp only [emitPrefixForm, prefixForm, ih, bind_assoc, pure_bind, String.append_assoc]
  | unary operator right ih =>
      simp only [emitPrefixForm, prefixForm, ih, bind_assoc, pure_bind, String.append_assoc]
  | binary left operator right leftIh rightIh =>
      simp only [emitPrefixForm, prefixForm, leftIh, rightIh, bind_assoc, pure_bind,
        String.append_assoc]
  | empty => simp [emitPrefixForm, prefixForm]
  | hole content => simp [emitPrefixForm, prefixForm]

theorem toPrefixForm_eq (showHole : α → Except ε String) (tree : Tree α) :
    tree.toPrefixForm showHole = tree.prefixForm showHole := by
  simp [toPrefixForm, emitPrefixForm_node, emitPrefixForm]

/-- The lines of a pending tree are put behind the lines so far. -/
theorem emitOutline_cons
    (showHole : α → Except ε String) (tree : Tree α) (level : Int) (lines : List String)
    (items : List (Int × Tree α)) :
    emitOutline showHole lines ((level, tree) :: items) =
      (do
        let shown ← tree.outline showHole level
        emitOutline showHole (shown.reverse ++ lines) items) := by
  induction tree generalizing level lines items with
  | literal value => simp [emitOutline, outline]
  | grouping inner ih => simp [emitOutline, outline, ih]
  | unary operator right ih => simp [emitOutline, outline, ih]
  | binary left operator right leftIh rightIh => simp [emitOutline, outline, leftIh, rightIh]
  | empty => simp [emitOutline, outline]
  | hole content => simp [emitOutline, outline]

theorem toOutline_eq (showHole : α → Except ε String) (level : Int) (tree : Tree α) :
    tree.toOutline showHole level = tree.outline showHole level := by
  simp [toOutline, emitOutline_cons, emitOutline]

end LoxSyntax.Tree

namespace LoxSyntax.Expr

open LoxSyntax.Tree

theorem prefixForm_eq (expr : Expr) :
    expr.prefixForm (fun hole : Empty => (hole.elim : Except Empty String)) =
      .ok expr.prefixText := by
  rw [prefixText, toPrefixForm_eq]
  split
  · assumption
  · rename_i impossible _
    exact impossible.elim

theorem outline_eq (expr : Expr) (level : Int) :
    expr.outline (fun hole : Empty => (hole.elim : Except Empty String)) level =
      .ok (expr.outlineLines level) := by
  rw [outlineLines, toOutline_eq]
  split
  · assumption
  · rename_i impossible _
    exact impossible.elim

theorem prefixText_literal (value : Value) :
    prefixText (.literal value) = value.written :=
  (Except.ok.inj (prefixForm_eq (.literal value))).symm

theorem prefixText_grouping (inner : Expr) :
    prefixText (.grouping inner) = "(group " ++ inner.prefixText ++ ")" := by
  have form := prefixForm_eq (.grouping inner)
  rw [prefixForm, prefixForm_eq] at form
  exact (Except.ok.inj form).symm

theorem prefixText_unary (operator : Token) (right : Expr) :
    prefixText (.unary operator right) =
      "(" ++ operatorText operator ++ " " ++ right.prefixText ++ ")" := by
  have form := prefixForm_eq (.unary operator right)
  rw [prefixForm, prefixForm_eq] at form
  exact (Except.ok.inj form).symm

theorem prefixText_binary (left : Expr) (operator : Token) (right : Expr) :
    prefixText (.binary left operator right) =
      "(" ++ operatorText operator ++ " " ++ left.prefixText ++ " " ++ right.prefixText ++
        ")" := by
  have form := prefixForm_eq (.binary left operator right)
  rw [prefixForm, prefixForm_eq, prefixForm_eq] at form
  exact (Except.ok.inj form).symm

theorem prefixText_empty : prefixText .empty = "<empty>" :=
  (Except.ok.inj (prefixForm_eq .empty)).symm

theorem outlineLines_literal (value : Value) (level : Int) :
    outlineLines (.literal value) level = [outlineLine level ("Literal " ++ value.written)] :=
  (Except.ok.inj (outline_eq (.literal value) level)).symm

theorem outlineLines_grouping (inner : Expr) (level : Int) :
    outlineLines (.grouping inner) level =
      outlineLine level "Grouping" :: inner.outlineLines (level + 1) := by
  have form := outline_eq (.grouping inner) level
  rw [outline, outline_eq] at form
  exact (Except.ok.inj form).symm

theorem outlineLines_unary (operator : Token) (right : Expr) (level : Int) :
    outlineLines (.unary operator right) level =
      outlineLine level ("Unary " ++ operatorText operator) ::
        right.outlineLines (level + 1) := by
  have form := outline_eq (.unary operator right) level
  rw [outline, outline_eq] at form
  exact (Except.ok.inj form).symm

theorem outlineLines_binary (left : Expr) (operator : Token) (right : Expr) (level : Int) :
    outlineLines (.binary left operator right) level =
      outlineLine level ("Binary " ++ operatorText operator) ::
        (left.outlineLines (level + 1) ++ right.outlineLines (level + 1)) := by
  have form := outline_eq (.binary left operator right) level
  rw [outline, outline_eq, outline_eq] at form
  exact (Except.ok.inj form).symm

theorem outlineLines_empty (level : Int) :
    outlineLines .empty level = [outlineLine level "Empty"] :=
  (Except.ok.inj (outline_eq .empty level)).symm

end LoxSyntax.Expr
