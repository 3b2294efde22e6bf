import LoxSyntax.Proofs.Tree.Legible

/-!
# Trees that are alike

Two trees are alike when they have the same shape, with operators that are related and with
values that are equal or numbers written alike.  Alike trees have the same prefix form and the
same outline.

The prefix form of a legible tree says where it ends, in front of whatever may stand behind a
value, and which trees it may show (`Tree.Legible.settled_prefix`).  Texts are shown in it as
they are, and an operator looks the same before one operand and between two: the two are told
apart by what stands behind the first operand.
-/

namespace LoxSyntax

/-- Whether two operators are the same ones, on whatever lines and with whatever values. -/
def Token.SameOperator (left right : Token) : Prop :=
  left.kind = right.kind ∧ left.lexeme = right.lexeme

def Token.SameUpToLine (left right : Token) : Prop :=
  left.mapLine toFirstLine = right.mapLine toFirstLine

namespace Tree

/-- Trees of the same shape, with operators that are related and values that are alike. -/
inductive Alike (operators : Token → Token → Prop) : Expr → Expr → Prop
  | literal {left right : Value} :
      left.Alike right →
      Alike operators (.literal left) (.literal right)
  | grouping {left right : Expr} :
      Alike operators left right →
      Alike operators (.grouping left) (.grouping right)
  | unary {leftOperator rightOperator : Token} {left right : Expr} :
      operators leftOperator rightOperator →
      Alike operators left right →
      Alike operators (.unary leftOperator left) (.unary rightOperator right)
  | binary {leftOperator rightOperator : Token} {left₁ left₂ right₁ right₂ : Expr} :
      Alike operators left₁ left₂ →
      operators leftOperator rightOperator →
      Alike operators right₁ right₂ →
      Alike operators (.binary left₁ leftOperator right₁) (.binary left₂ rightOperator right₂)
  | empty :
      Alike operators .empty .empty

namespace Alike

variable {operators : Token → Token → Prop} {left right : Expr}

theorem mono
    {others : Token → Token → Prop}
    (alike : Alike operators left right)
    (weaker : ∀ leftOperator rightOperator,
      operators leftOperator rightOperator → others leftOperator rightOperator) :
    Alike others left right := by
  induction alike with
  | literal alike => exact .literal alike
  | grouping _ ih => exact .grouping ih
  | unary related _ ih => exact .unary (weaker _ _ related) ih
  | binary _ related _ leftIh rightIh => exact .binary leftIh (weaker _ _ related) rightIh
  | empty => exact .empty

theorem prefixText_eq
    (alike : Alike operators left right)
    (texts : ∀ leftOperator rightOperator,
      operators leftOperator rightOperator →
        operatorText leftOperator = operatorText rightOperator) :
    Expr.prefixText left = Expr.prefixText right := by
  induction alike with
  | literal alike =>
      rw [Expr.prefixText_literal, Expr.prefixText_literal, Value.alike_iff.1 alike]
  | grouping _ ih => rw [Expr.prefixText_grouping, Expr.prefixText_grouping, ih]
  | unary related _ ih =>
      rw [Expr.prefixText_unary, Expr.prefixText_unary, texts _ _ related, ih]
  | binary _ related _ leftIh rightIh =>
      rw [Expr.prefixText_binary, Expr.prefixText_binary, texts _ _ related, leftIh, rightIh]
  | empty => rfl

theorem outlineLines_eq
    (alike : Alike operators left right)
    (texts : ∀ leftOperator rightOperator,
      operators leftOperator rightOperator →
        operatorText leftOperator = operatorText rightOperator)
    (level : Int) :
    Expr.outlineLines left level = Expr.outlineLines right level := by
  induction alike generalizing level with
  | literal alike =>
      rw [Expr.outlineLines_literal, Expr.outlineLines_literal, Value.alike_iff.1 alike]
  | grouping _ ih => rw [Expr.outlineLines_grouping, Expr.outlineLines_grouping, ih]
  | unary related _ ih =>
      rw [Expr.outlineLines_unary, Expr.outlineLines_unary, texts _ _ related, ih]
  | binary _ related _ leftIh rightIh =>
      rw [Expr.outlineLines_binary, Expr.outlineLines_binary, texts _ _ related, leftIh,
        rightIh]
  | empty => rfl

end Alike

/-- `Settled shown left` when no legible tree but one that is alike is shown as `left` is, with
either of them in front of what may stand behind a value. -/
def Settled (shown : Expr → List Char) (left : Expr) : Prop :=
  ∀ ⦃right : Expr⦄ ⦃lefts rights : List Char⦄,
    Legible right →
    Delimited lefts →
    Delimited rights →
    shown left ++ lefts = shown right ++ rights →
    Alike Token.SameUpToLine left right ∧ lefts = rights

/-! ## Reading a tree off its prefix form -/

/-- The characters of the prefix form. -/
def prefixCharacters (expr : Expr) : List Char :=
  expr.prefixText.toList

theorem prefixCharacters_literal (value : Value) :
    prefixCharacters (.literal value) = value.written.toList := by
  rw [prefixCharacters, Expr.prefixText_literal]

theorem prefixCharacters_grouping (inner : Expr) :
    prefixCharacters (.grouping inner) =
      '(' :: ("group".toList ++ ' ' :: (prefixCharacters inner ++ [')'])) := by
  simp [prefixCharacters, Expr.prefixText_grouping]

theorem prefixCharacters_unary (operator : Token) (right : Expr) :
    prefixCharacters (.unary operator right) =
      '(' :: ((operatorText operator).toList ++ ' ' :: (prefixCharacters right ++ [')'])) := by
  simp [prefixCharacters, Expr.prefixText_unary]

theorem prefixCharacters_binary (left : Expr) (operator : Token) (right : Expr) :
    prefixCharacters (.binary left operator right) =
      '(' :: ((operatorText operator).toList ++ ' ' ::
        (prefixCharacters left ++ ' ' :: (prefixCharacters right ++ [')']))) := by
  simp [prefixCharacters, Expr.prefixText_binary]

theorem prefixCharacters_empty : prefixCharacters .empty = '<' :: "empty>".toList := by
  rw [prefixCharacters, Expr.prefixText_empty]
  rfl

/-- Nothing but a literal begins like one. -/
theorem exists_eq_literal
    {expr : Expr} {value : Value} {lefts rights : List Char}
    (delimited : Delimited lefts)
    (equality : value.written.toList ++ lefts = prefixCharacters expr ++ rights) :
    ∃ other, expr = .literal other := by
  have begins {mark : Char} {later : List Char}
      (opens : opensNode mark)
      (notQuote : mark ≠ '"')
      (shown : prefixCharacters expr = mark :: later) :
      False := by
    rw [shown, List.cons_append] at equality
    exact Value.written_append_ne_node opens notQuote delimited value _ equality
  have parenthesis {later : List Char} (shown : prefixCharacters expr = '(' :: later) : False :=
    begins (by decide) (by decide) shown
  cases expr with
  | literal other => exact ⟨other, rfl⟩
  | grouping inner => exact (parenthesis (prefixCharacters_grouping inner)).elim
  | unary operator right => exact (parenthesis (prefixCharacters_unary operator right)).elim
  | binary left operator right =>
      exact (parenthesis (prefixCharacters_binary left operator right)).elim
  | empty => exact (begins (by decide) (by decide) prefixCharacters_empty).elim
  | hole content => exact content.elim

theorem append_ne_literal
    {expr : Expr} {lefts rights : List Char}
    (notLiteral : ∀ value, expr ≠ .literal value)
    (delimited : Delimited rights)
    (value : Value) :
    prefixCharacters expr ++ lefts ≠ prefixCharacters (.literal value) ++ rights := by
  rw [prefixCharacters_literal]
  intro equality
  obtain ⟨other, isLiteral⟩ := exists_eq_literal delimited equality.symm
  exact notLiteral other isLiteral

/-- The word that a group begins with. -/
theorem bare_group : Bare "group".toList :=
  .of_all (by decide)

namespace Settled

theorem prefix_literal
    {value : Value}
    (unquoted : value.Unquoted) :
    Settled prefixCharacters (.literal value) := by
  intro right lefts rights rightLegible leftDelimited rightDelimited equality
  rw [prefixCharacters_literal] at equality
  obtain ⟨other, rfl⟩ := exists_eq_literal leftDelimited equality
  cases rightLegible with
  | literal rightUnquoted =>
      rw [prefixCharacters_literal] at equality
      obtain ⟨alike, rests⟩ :=
        Value.written_append_inj unquoted rightUnquoted leftDelimited rightDelimited equality
      exact ⟨.literal alike, rests⟩

theorem prefix_empty : Settled prefixCharacters .empty := by
  intro right lefts rights rightLegible leftDelimited rightDelimited equality
  cases rightLegible with
  | literal => exact absurd equality (append_ne_literal (by simp) rightDelimited _)
  | grouping => simp [prefixCharacters_grouping, prefixCharacters_empty] at equality
  | unary => simp [prefixCharacters_unary, prefixCharacters_empty] at equality
  | binary => simp [prefixCharacters_binary, prefixCharacters_empty] at equality
  | empty => exact ⟨.empty, List.append_cancel_left equality⟩

theorem prefix_grouping
    {inner : Expr}
    (settled : Settled prefixCharacters inner) :
    Settled prefixCharacters (.grouping inner) := by
  intro right lefts rights rightLegible leftDelimited rightDelimited equality
  cases rightLegible with
  | literal => exact absurd equality (append_ne_literal (by simp) rightDelimited _)
  | grouping rightInner =>
      simp only [prefixCharacters_grouping, List.cons_append, List.append_assoc,
        List.nil_append, List.cons.injEq, true_and] at equality
      obtain ⟨_, insides⟩ := bare_group.cut bare_group equality
      obtain ⟨alike, rests⟩ :=
        settled rightInner (delimited_cons rfl _) (delimited_cons rfl _) insides
      exact ⟨.grouping alike, (List.cons.inj rests).2⟩
  | unary scanned isOperator =>
      simp only [prefixCharacters_grouping, prefixCharacters_unary, List.cons_append,
        List.append_assoc, List.cons.injEq, true_and] at equality
      have words := (bare_group.cut (scanned.bare_operatorText isOperator) equality).1
      exact absurd words.symm (scanned.operatorText_ne_group isOperator)
  | binary scanned isOperator =>
      simp only [prefixCharacters_grouping, prefixCharacters_binary, List.cons_append,
        List.append_assoc, List.cons.injEq, true_and] at equality
      have words := (bare_group.cut (scanned.bare_operatorText isOperator) equality).1
      exact absurd words.symm (scanned.operatorText_ne_group isOperator)
  | empty => simp [prefixCharacters_grouping, prefixCharacters_empty] at equality

section Operators

variable {operator : Token} {left right : Expr}
  (scanned : operator.Scanned)
  (isOperator : operator.kind ∈ TokenKind.operators)

include scanned isOperator

theorem prefix_unary
    (settled : Settled prefixCharacters right) :
    Settled prefixCharacters (.unary operator right) := by
  intro other lefts rights otherLegible leftDelimited rightDelimited equality
  have bare := scanned.bare_operatorText isOperator
  cases otherLegible with
  | literal => exact absurd equality (append_ne_literal (by simp) rightDelimited _)
  | grouping =>
      simp only [prefixCharacters_grouping, prefixCharacters_unary, List.cons_append,
        List.append_assoc, List.cons.injEq, true_and] at equality
      exact absurd (bare.cut bare_group equality).1 (scanned.operatorText_ne_group isOperator)
  | unary otherScanned otherIsOperator otherRight =>
      have otherBare := otherScanned.bare_operatorText otherIsOperator
      simp only [prefixCharacters_unary, List.cons_append, List.append_assoc,
        List.nil_append, List.cons.injEq, true_and] at equality
      obtain ⟨texts, operands⟩ := bare.cut otherBare equality
      obtain ⟨alike, rests⟩ :=
        settled otherRight (delimited_cons rfl _) (delimited_cons rfl _) operands
      have same := scanned.eq_of_operatorText otherScanned texts
      exact ⟨.unary same alike, (List.cons.inj rests).2⟩
  | binary otherScanned otherIsOperator otherLeft =>
      have otherBare := otherScanned.bare_operatorText otherIsOperator
      simp only [prefixCharacters_unary, prefixCharacters_binary, List.cons_append,
        List.append_assoc, List.nil_append, List.cons.injEq, true_and] at equality
      obtain ⟨_, operands⟩ := bare.cut otherBare equality
      obtain ⟨_, rests⟩ :=
        settled otherLeft (delimited_cons rfl _) (delimited_cons rfl _) operands
      exact absurd (List.cons.inj rests).1 (by decide)
  | empty => simp [prefixCharacters_unary, prefixCharacters_empty] at equality

theorem prefix_binary
    (leftSettled : Settled prefixCharacters left)
    (rightSettled : Settled prefixCharacters right) :
    Settled prefixCharacters (.binary left operator right) := by
  intro other lefts rights otherLegible leftDelimited rightDelimited equality
  have bare := scanned.bare_operatorText isOperator
  cases otherLegible with
  | literal => exact absurd equality (append_ne_literal (by simp) rightDelimited _)
  | grouping =>
      simp only [prefixCharacters_grouping, prefixCharacters_binary, List.cons_append,
        List.append_assoc, List.cons.injEq, true_and] at equality
      exact absurd (bare.cut bare_group equality).1 (scanned.operatorText_ne_group isOperator)
  | unary otherScanned otherIsOperator otherRight =>
      have otherBare := otherScanned.bare_operatorText otherIsOperator
      simp only [prefixCharacters_unary, prefixCharacters_binary, List.cons_append,
        List.append_assoc, List.nil_append, List.cons.injEq, true_and] at equality
      obtain ⟨_, operands⟩ := bare.cut otherBare equality
      obtain ⟨_, rests⟩ :=
        leftSettled otherRight (delimited_cons rfl _) (delimited_cons rfl _) operands
      exact absurd (List.cons.inj rests).1 (by decide)
  | binary otherScanned otherIsOperator otherLeft otherRight =>
      have otherBare := otherScanned.bare_operatorText otherIsOperator
      simp only [prefixCharacters_binary, List.cons_append, List.append_assoc,
        List.nil_append, List.cons.injEq, true_and] at equality
      obtain ⟨texts, operands⟩ := bare.cut otherBare equality
      obtain ⟨leftAlike, behindLeft⟩ :=
        leftSettled otherLeft (delimited_cons rfl _) (delimited_cons rfl _) operands
      obtain ⟨rightAlike, rests⟩ :=
        rightSettled otherRight (delimited_cons rfl _) (delimited_cons rfl _)
          (List.cons.inj behindLeft).2
      have same := scanned.eq_of_operatorText otherScanned texts
      exact ⟨.binary leftAlike same rightAlike, (List.cons.inj rests).2⟩
  | empty => simp [prefixCharacters_binary, prefixCharacters_empty] at equality

end Operators

end Settled

/-- The prefix form of a legible tree is settled. -/
theorem Legible.settled_prefix {expr : Expr} (legible : Legible expr) :
    Settled prefixCharacters expr := by
  induction legible with
  | literal unquoted => exact .prefix_literal unquoted
  | grouping _ ih => exact ih.prefix_grouping
  | unary scanned isOperator _ ih => exact .prefix_unary scanned isOperator ih
  | binary scanned isOperator _ _ leftIh rightIh =>
      exact .prefix_binary scanned isOperator leftIh rightIh
  | empty => exact .prefix_empty

end Tree

end LoxSyntax
