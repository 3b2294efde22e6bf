import LoxSyntax.Proofs.Report
import LoxSyntax.Proofs.Tree.Alike

/-!
# Shown trees can be told apart

The outline of a legible tree, each line behind a line end, says where it ends and which trees
it may show (`Tree.Legible.settled_outline`), as the prefix form does.  The label of a node
says what kind of node it is, and how far it is indented is settled by what stands in front, so
that the lines of a text cannot be taken for nodes.

So the trees that two sources are read as have the same prefix form if and only if they have the
same outline, and if and only if they are alike.
-/

namespace LoxSyntax

namespace Tree

/-- The characters of an outline, each line behind a line end. -/
def outlineCharacters (level : Int) (expr : Expr) : List Char :=
  (expr.outlineLines level).flatMap fun line => '\n' :: line.toList

/-- The line of a node behind a line end. -/
def lineCharacters (level : Int) (label : List Char) : List Char :=
  '\n' :: (List.replicate (2 * level.toNat) ' ' ++ label)

section Equations

variable (level : Int) (value : Value) (operator : Token) (inner left right : Expr)

theorem outlineCharacters_literal :
    outlineCharacters level (.literal value) =
      lineCharacters level ("Literal ".toList ++ value.written.toList) := by
  simp [outlineCharacters, lineCharacters, Expr.outlineLines_literal, outlineLine]

theorem outlineCharacters_grouping :
    outlineCharacters level (.grouping inner) =
      lineCharacters level ("Grouping".toList ++ outlineCharacters (level + 1) inner) := by
  simp [outlineCharacters, lineCharacters, Expr.outlineLines_grouping, outlineLine]

theorem outlineCharacters_unary :
    outlineCharacters level (.unary operator right) =
      lineCharacters level
        ("Unary ".toList ++
          ((operatorText operator).toList ++ outlineCharacters (level + 1) right)) := by
  simp [outlineCharacters, lineCharacters, Expr.outlineLines_unary, outlineLine]

theorem outlineCharacters_binary :
    outlineCharacters level (.binary left operator right) =
      lineCharacters level
        ("Binary ".toList ++
          ((operatorText operator).toList ++
            (outlineCharacters (level + 1) left ++ outlineCharacters (level + 1) right))) := by
  simp [outlineCharacters, lineCharacters, Expr.outlineLines_binary, outlineLine]

theorem outlineCharacters_empty :
    outlineCharacters level .empty = lineCharacters level "Empty".toList := by
  simp [outlineCharacters, lineCharacters, Expr.outlineLines_empty, outlineLine]

end Equations

theorem lineCharacters_append_inj
    {level : Int} {first second lefts rights : List Char}
    (equality : lineCharacters level first ++ lefts = lineCharacters level second ++ rights) :
    first ++ lefts = second ++ rights := by
  simpa [lineCharacters] using equality

/-- The letter that the label of a node begins with. -/
def initial : Expr → Char
  | literal _ => 'L'
  | grouping _ => 'G'
  | unary _ _ => 'U'
  | binary _ _ _ => 'B'
  | empty => 'E'
  | hole content => content.elim

theorem exists_outlineCharacters_eq (level : Int) (expr : Expr) :
    ∃ later, outlineCharacters level expr = lineCharacters level (initial expr :: later) := by
  cases expr with
  | literal value => exact ⟨_, outlineCharacters_literal level value⟩
  | grouping inner => exact ⟨_, outlineCharacters_grouping level inner⟩
  | unary operator right => exact ⟨_, outlineCharacters_unary level operator right⟩
  | binary left operator right => exact ⟨_, outlineCharacters_binary level operator left right⟩
  | empty => exact ⟨_, outlineCharacters_empty level⟩
  | hole content => exact content.elim

theorem initial_eq_of_append
    {level : Int} {left right : Expr} {lefts rights : List Char}
    (equality : outlineCharacters level left ++ lefts = outlineCharacters level right ++ rights) :
    initial left = initial right := by
  obtain ⟨leftLater, leftShown⟩ := exists_outlineCharacters_eq level left
  obtain ⟨rightLater, rightShown⟩ := exists_outlineCharacters_eq level right
  rw [leftShown, rightShown] at equality
  exact (List.cons.inj (lineCharacters_append_inj equality)).1

/-- A node begins on a new line. -/
theorem delimited_outlineCharacters (level : Int) (expr : Expr) (rest : List Char) :
    Delimited (outlineCharacters level expr ++ rest) := by
  obtain ⟨later, shown⟩ := exists_outlineCharacters_eq level expr
  rw [shown]
  exact delimited_cons rfl _

namespace Settled

variable {level : Int}

theorem outline_literal
    {value : Value}
    (unquoted : value.Unquoted) :
    Settled (outlineCharacters level) (.literal value) := by
  intro right lefts rights rightLegible leftDelimited rightDelimited equality
  have initials := initial_eq_of_append equality
  cases rightLegible with
  | literal rightUnquoted =>
      rw [outlineCharacters_literal, outlineCharacters_literal] at equality
      have labels := lineCharacters_append_inj equality
      rw [List.append_assoc, List.append_assoc] at labels
      obtain ⟨alike, rests⟩ :=
        Value.written_append_inj unquoted rightUnquoted leftDelimited rightDelimited
          (List.append_cancel_left labels)
      exact ⟨.literal alike, rests⟩
  | _ => simp [initial] at initials

theorem outline_empty : Settled (outlineCharacters level) .empty := by
  intro right lefts rights rightLegible leftDelimited rightDelimited equality
  have initials := initial_eq_of_append equality
  cases rightLegible with
  | empty => exact ⟨.empty, List.append_cancel_left equality⟩
  | _ => simp [initial] at initials

theorem outline_grouping
    {inner : Expr}
    (settled : Settled (outlineCharacters (level + 1)) inner) :
    Settled (outlineCharacters level) (.grouping inner) := by
  intro right lefts rights rightLegible leftDelimited rightDelimited equality
  have initials := initial_eq_of_append equality
  cases rightLegible with
  | grouping rightInner =>
      rw [outlineCharacters_grouping, outlineCharacters_grouping] at equality
      have labels := lineCharacters_append_inj equality
      rw [List.append_assoc, List.append_assoc] at labels
      obtain ⟨alike, rests⟩ :=
        settled rightInner leftDelimited rightDelimited (List.append_cancel_left labels)
      exact ⟨.grouping alike, rests⟩
  | _ => simp [initial] at initials

section Operators

variable {operator : Token} {left right : Expr}
  (scanned : operator.Scanned)
  (isOperator : operator.kind ∈ TokenKind.operators)

include scanned isOperator

theorem outline_unary
    (settled : Settled (outlineCharacters (level + 1)) right) :
    Settled (outlineCharacters level) (.unary operator right) := by
  intro other lefts rights otherLegible leftDelimited rightDelimited equality
  have initials := initial_eq_of_append equality
  cases otherLegible with
  | unary otherScanned otherIsOperator otherRight =>
      rw [outlineCharacters_unary, outlineCharacters_unary] at equality
      have labels := lineCharacters_append_inj equality
      simp only [List.append_assoc] at labels
      obtain ⟨texts, operands⟩ :=
        (scanned.bare_operatorText isOperator).append_inj
          (otherScanned.bare_operatorText otherIsOperator)
          (delimited_outlineCharacters _ _ _) (delimited_outlineCharacters _ _ _)
          (List.append_cancel_left labels)
      obtain ⟨alike, rests⟩ := settled otherRight leftDelimited rightDelimited operands
      have same := scanned.eq_of_operatorText otherScanned texts
      exact ⟨.unary same alike, rests⟩
  | _ => simp [initial] at initials

theorem outline_binary
    (leftSettled : Settled (outlineCharacters (level + 1)) left)
    (rightSettled : Settled (outlineCharacters (level + 1)) right) :
    Settled (outlineCharacters level) (.binary left operator right) := by
  intro other lefts rights otherLegible leftDelimited rightDelimited equality
  have initials := initial_eq_of_append equality
  cases otherLegible with
  | binary otherScanned otherIsOperator otherLeft otherRight =>
      rw [outlineCharacters_binary, outlineCharacters_binary] at equality
      have labels := lineCharacters_append_inj equality
      simp only [List.append_assoc] at labels
      obtain ⟨texts, operands⟩ :=
        (scanned.bare_operatorText isOperator).append_inj
          (otherScanned.bare_operatorText otherIsOperator)
          (delimited_outlineCharacters _ _ _) (delimited_outlineCharacters _ _ _)
          (List.append_cancel_left labels)
      obtain ⟨leftAlike, behindLeft⟩ :=
        leftSettled otherLeft (delimited_outlineCharacters _ _ _)
          (delimited_outlineCharacters _ _ _) operands
      obtain ⟨rightAlike, rests⟩ :=
        rightSettled otherRight leftDelimited rightDelimited behindLeft
      have same := scanned.eq_of_operatorText otherScanned texts
      exact ⟨.binary leftAlike same rightAlike, rests⟩
  | _ => simp [initial] at initials

end Operators

end Settled

/-- The outline of a legible tree is settled at every level. -/
theorem Legible.settled_outline {expr : Expr} (legible : Legible expr) (level : Int) :
    Settled (outlineCharacters level) expr := by
  induction legible generalizing level with
  | literal unquoted => exact .outline_literal unquoted
  | grouping _ ih => exact .outline_grouping (ih (level + 1))
  | unary scanned isOperator _ ih => exact .outline_unary scanned isOperator (ih (level + 1))
  | binary scanned isOperator _ _ leftIh rightIh =>
      exact .outline_binary scanned isOperator (leftIh (level + 1)) (rightIh (level + 1))
  | empty => exact .outline_empty

theorem cons_toList_intercalate (line : String) (lines : List String) :
    '\n' :: ("\n".intercalate (line :: lines)).toList =
      (line :: lines).flatMap fun line => '\n' :: line.toList := by
  induction lines generalizing line with
  | nil => simp
  | cons next others ih =>
      rw [String.intercalate_cons_cons, List.flatMap_cons, ← ih]
      simp

theorem cons_outlineText (expr : Expr) :
    '\n' :: expr.outlineText.toList = outlineCharacters 0 expr := by
  have notNil : expr.outlineLines 0 ≠ [] := by
    intro none
    obtain ⟨later, shown⟩ := exists_outlineCharacters_eq 0 expr
    rw [outlineCharacters, none] at shown
    exact absurd shown (by simp [lineCharacters])
  obtain ⟨line, lines, shown⟩ := List.exists_cons_of_ne_nil notNil
  rw [Expr.outlineText, outlineCharacters, shown]
  exact cons_toList_intercalate line lines

/-! ## The trees of sources -/

namespace Legible

variable {left right : Expr} (leftLegible : Legible left) (rightLegible : Legible right)

include leftLegible rightLegible

theorem alike_of_prefixText
    (equality : left.prefixText = right.prefixText) :
    Alike Token.SameUpToLine left right := by
  have characters : prefixCharacters left ++ [] = prefixCharacters right ++ [] := by
    rw [prefixCharacters, prefixCharacters, equality]
  exact (leftLegible.settled_prefix rightLegible delimited_nil delimited_nil characters).1

theorem alike_of_outlineText
    (equality : left.outlineText = right.outlineText) :
    Alike Token.SameUpToLine left right := by
  have characters : outlineCharacters 0 left ++ [] = outlineCharacters 0 right ++ [] := by
    rw [← cons_outlineText, ← cons_outlineText, equality]
  exact (leftLegible.settled_outline 0 rightLegible delimited_nil delimited_nil characters).1

end Legible

end Tree

/-- The tree of a source is legible. -/
theorem Report.exists_legible (source : String) :
    ∃ expr, (ofSource source).expr = some expr ∧ Tree.Legible expr := by
  obtain ⟨position, next, expr, diagnostics, parses⟩ := exists_parses (ended_ofSource source)
  refine ⟨expr, by rw [parses.ofSource_eq], ?_⟩
  apply parses.reads.legible
  intro token member goesOn
  exact Token.scanned_of_mem_ofSource (List.mem_of_mem_take member) goesOn

theorem Token.SameUpToLine.sameOperator
    {left right : Token}
    (same : SameUpToLine left right) :
    SameOperator left right := by
  obtain ⟨kinds, lexemes, _⟩ := Token.ext_iff.1 same
  exact ⟨kinds, lexemes⟩

theorem Token.SameOperator.operatorText_eq
    {left right : Token}
    (same : SameOperator left right) :
    Tree.operatorText left = Tree.operatorText right := by
  rw [Tree.operatorText, Tree.operatorText, same.2]

/-- The trees of two sources have the same prefix form if and only if they have the same
outline, and if and only if they are alike.  Then they differ in the lines of operators only, and
in numbers that are written alike. -/
theorem Report.forms_unambiguous (source other : String) :
    ∃ left right : Expr,
      (ofSource source).expr = some left ∧
        (ofSource other).expr = some right ∧
        (left.prefixText = right.prefixText ↔ left.outlineText = right.outlineText) ∧
        (left.outlineText = right.outlineText ↔ Tree.Alike Token.SameOperator left right) ∧
        (Tree.Alike Token.SameOperator left right ↔
          Tree.Alike Token.SameUpToLine left right) := by
  obtain ⟨left, leftIs, leftLegible⟩ := exists_legible source
  obtain ⟨right, rightIs, rightLegible⟩ := exists_legible other
  have texts (leftOperator rightOperator : Token) :
      leftOperator.SameOperator rightOperator →
        Tree.operatorText leftOperator = Tree.operatorText rightOperator :=
    Token.SameOperator.operatorText_eq
  have weaken : Tree.Alike Token.SameUpToLine left right →
      Tree.Alike Token.SameOperator left right := by
    intro alike
    exact alike.mono fun _ _ => Token.SameUpToLine.sameOperator
  have outlineText_eq : Tree.Alike Token.SameOperator left right →
      left.outlineText = right.outlineText := by
    intro alike
    rw [Expr.outlineText, Expr.outlineText, alike.outlineLines_eq texts]
  have ofPrefix := leftLegible.alike_of_prefixText rightLegible
  have ofOutline := leftLegible.alike_of_outlineText rightLegible
  refine ⟨left, right, leftIs, rightIs, ?_, ?_, ?_⟩
  · constructor
    · intro equality
      exact outlineText_eq (weaken (ofPrefix equality))
    · intro equality
      exact (weaken (ofOutline equality)).prefixText_eq texts
  · constructor
    · intro equality
      exact weaken (ofOutline equality)
    · exact outlineText_eq
  · constructor
    · intro alike
      exact ofOutline (outlineText_eq alike)
    · exact weaken

end LoxSyntax
