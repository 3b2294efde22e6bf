import LoxSyntax.Layout

/-!
# Gaps

`Gap after gap` says that `gap`, in front of `after`, is a sequence of blanks and of complete
comments.  A comment is complete up to a character that ends its line, or the end of the text.

The layout that a text begins with is a gap (`gap_leading`), and it is all of it: behind it
stands neither a blank nor a comment (`Layout.not_layout_of_behind`).
-/

namespace LoxSyntax

open Layout

/-- `Gap after gap` when `gap` consists of blanks and complete comments in front of `after`. -/
inductive Gap (after : List Char) : List Char → Prop
  | nil : Gap after []
  | blank {character : Char} {gap : List Char} :
      Text.isBlank character →
      Gap after gap →
      Gap after (character :: gap)
  | comment {body gap : List Char} :
      (∀ character ∈ body, character ≠ '\n' ∧ character ≠ '\r') →
      (∀ next later, gap ++ after = next :: later → next = '\n' ∨ next = '\r') →
      Gap after gap →
      Gap after ('/' :: '/' :: (body ++ gap))

theorem endsLine_iff {character : Char} :
    endsLine character ↔ character = '\n' ∨ character = '\r' := by
  rw [endsLine, Bool.or_eq_true, decide_eq_true_eq, decide_eq_true_eq]

theorem endsLine_eq_false_iff {character : Char} :
    endsLine character = false ↔ character ≠ '\n' ∧ character ≠ '\r' := by
  rw [← Bool.not_eq_true, endsLine_iff, not_or]

theorem isBlank_of_endsLine {character : Char} (ends : endsLine character) :
    Text.isBlank character := by
  rcases endsLine_iff.1 ends with rfl | rfl <;> decide

namespace Layout

theorem leading_append_drop (text : List Char) :
    leading text ++ text.drop (leading text).length = text :=
  List.prefix_iff_eq_append.1 (run_isPrefix false text)

/-- Behind the layout stands no blank and no comment. -/
theorem not_layout_of_behind
    {inComment : Bool} {text : List Char} {next : Char} {later : List Char}
    (behind : text.drop (run inComment text).length = next :: later) :
    ¬ Text.isBlank next ∧ ¬ ['/', '/'] <+: next :: later := by
  fun_induction run inComment text with
  | case1 => simp at behind
  | case2 character rest ih => exact ih behind
  | case3 rest ih => exact ih behind
  | case4 character rest noComment isBlank ih => exact ih behind
  | case5 character rest noComment notBlank =>
      simp only [List.length_nil, List.drop_zero, List.cons.injEq] at behind
      obtain ⟨rfl, rfl⟩ := behind
      refine ⟨notBlank, ?_⟩
      rintro ⟨further, equality⟩
      simp only [List.cons_append, List.cons.injEq, List.nil_append] at equality
      exact noComment further equality.1.symm equality.2.symm

/-- What the layout of a text is: a gap, or inside a comment the rest of it and a gap. -/
def IsLayout (after : List Char) : (inComment : Bool) → List Char → Prop
  | false, layout => Gap after layout
  | true, layout =>
      ∃ body gap, layout = body ++ gap ∧
        (∀ character ∈ body, character ≠ '\n' ∧ character ≠ '\r') ∧
        (∀ next later, gap ++ after = next :: later → next = '\n' ∨ next = '\r') ∧
        Gap after gap

theorem isLayout_run (inComment : Bool) (text : List Char) :
    IsLayout (text.drop (run inComment text).length) inComment (run inComment text) := by
  fun_induction run inComment text with
  | case1 inComment =>
      cases inComment with
      | false => exact .nil
      | true => exact ⟨[], [], rfl, by simp, by simp, .nil⟩
  | case2 character rest ih =>
      cases ends : endsLine character with
      | false =>
          rw [ends] at ih
          obtain ⟨body, gap, equality, inside, stops, isGap⟩ := ih
          refine ⟨character :: body, gap, ?_, ?_, stops, isGap⟩
          · exact congrArg (character :: ·) equality
          · exact List.forall_mem_cons.2 ⟨endsLine_eq_false_iff.1 ends, inside⟩
      | true =>
          rw [ends] at ih
          refine ⟨[], character :: run false rest, rfl, by simp, ?_, ?_⟩
          · intro next later equality
            rw [← (List.cons.inj equality).1]
            exact endsLine_iff.1 ends
          · exact .blank (isBlank_of_endsLine ends) ih
  | case3 rest ih =>
      obtain ⟨body, gap, equality, inside, stops, isGap⟩ := ih
      rw [equality] at stops isGap ⊢
      exact .comment inside stops isGap
  | case4 character rest noComment isBlank ih => exact .blank isBlank ih
  | case5 => exact .nil

/-- The layout that a text begins with is a gap in front of what follows it. -/
theorem gap_leading (text : List Char) :
    Gap (text.drop (leading text).length) (leading text) :=
  isLayout_run false text

end Layout

end LoxSyntax
