import LoxSyntax.Proofs.Tree.Passes
import LoxSyntax.Proofs.Tree.Preorder

/-!
# What sketches are shown as

A sketch has a prefix form if there is a text in each of its holes, and an outline if it has no
holes.  Otherwise the first hole that cannot be shown, from the left, is the error
(`Sketch.prefixText_follows_structure`, `Sketch.outlineText_follows_preorder`).
-/

namespace LoxSyntax

open LoxSyntax.Tree

/-- The text of a hole as it is.  Where nothing stands there is none. -/
def Hole.verbatim : Hole → String
  | text content => content
  | nothing => ""

namespace Sketch

theorem shows_inPrefixForm : Shows Hole.inPrefixForm Hole.verbatim := by
  intro hole
  cases hole <;> rfl

theorem prefixText_eq (sketch : Sketch) :
    sketch.prefixText =
      unlessRefused (refusal? Hole.inPrefixForm sketch.holes) (sketch.rendering Hole.verbatim) := by
  rw [prefixText, toPrefixForm_eq, prefixForm_eq shows_inPrefixForm]

theorem inPrefixForm_eq_ok_iff (hole : Hole) :
    (∃ text, hole.inPrefixForm = .ok text) ↔ hole ≠ .nothing := by
  cases hole <;> simp [Hole.inPrefixForm, pure, Except.pure, throw, throwThe, MonadExceptOf.throw]

theorem inPrefixForm_eq_error_iff (hole : Hole) (node : UnknownNode) :
    hole.inPrefixForm = .error node ↔ hole = .nothing ∧ node = ⟨"None"⟩ := by
  cases hole <;>
    simp [Hole.inPrefixForm, pure, Except.pure, throw, throwThe, MonadExceptOf.throw,
      Hole.inspected, eq_comm]

/-- A sketch is worked off in at most five passes for each of its nodes.  If there is a text in
each of its holes, its prefix form is its rendering with these texts as they are.  Otherwise the
first hole with nothing in it is the error. -/
theorem prefixText_follows_structure (sketch : Sketch) :
    (∃ count ≤ 5 * sketch.size, ∃ outcome,
      Passes (Pending.write Hole.inPrefixForm) Pending.inPlace count [.node sketch] outcome ∧
        sketch.prefixText = outcome.map String.join) ∧
      (∀ text,
        sketch.prefixText = .ok text ↔
          (∀ hole ∈ sketch.holes, hole ≠ .nothing) ∧ text = sketch.rendering Hole.verbatim) ∧
      ∀ node,
        sketch.prefixText = .error node ↔
          ∃ before later,
            sketch.holes = before ++ .nothing :: later ∧
              (∀ hole ∈ before, hole ≠ .nothing) ∧
              node = ⟨"None"⟩ := by
  refine ⟨exists_passes_prefixForm Hole.inPrefixForm sketch, ?_, ?_⟩
  · intro text
    rw [prefixText_eq, unlessRefused_eq_ok_iff, refusal?_eq_none_iff]
    simp only [inPrefixForm_eq_ok_iff]
  · intro node
    rw [prefixText_eq, unlessRefused_eq_error_iff, refusal?_eq_some_iff]
    simp only [inPrefixForm_eq_ok_iff, inPrefixForm_eq_error_iff]
    constructor
    · rintro ⟨before, hole, later, split, ⟨rfl, named⟩, proper⟩
      exact ⟨before, later, split, proper, named⟩
    · rintro ⟨before, later, split, proper, named⟩
      exact ⟨before, .nothing, later, split, ⟨rfl, named⟩, proper⟩

/-- In an outline no hole can be shown. -/
def refuse (hole : Hole) : Except UnknownNode String :=
  .error ⟨hole.inspected⟩

theorem shows_refuse : Shows refuse Hole.inspected :=
  fun _ => rfl

theorem refusal?_refuse (holes : List Hole) :
    refusal? refuse holes = holes.head?.map fun hole => ⟨hole.inspected⟩ := by
  cases holes <;> rfl

theorem outlineText_eq_map (sketch : Sketch) (level : Int) :
    sketch.outlineText level = (sketch.toOutline refuse level).map "\n".intercalate :=
  rfl

theorem outlineText_eq (sketch : Sketch) (level : Int) :
    sketch.outlineText level =
      unlessRefused (sketch.holes.head?.map fun hole => ⟨hole.inspected⟩)
        ("\n".intercalate (sketch.preorder.map (nodeLine Hole.inspected level))) := by
  rw [outlineText_eq_map, toOutline_eq, outline_eq shows_refuse, refusal?_refuse]
  cases sketch.holes.head? <;> rfl

/-- A sketch without holes has an outline, each line of which describes one of its nodes, in their
order.  The first hole of a sketch that has any is the error.  Either is found in at most one pass
for each node. -/
theorem outlineText_follows_preorder (sketch : Sketch) (indent : Int) :
    (∃ count ≤ sketch.size, ∃ outcome,
      Passes (writeLine refuse) operands count [(indent, sketch)] outcome ∧
        sketch.outlineText indent = outcome.map "\n".intercalate) ∧
      (∀ text,
        sketch.outlineText indent = .ok text ↔
          sketch.holes = [] ∧
            text = "\n".intercalate (sketch.preorder.map (nodeLine Hole.inspected indent))) ∧
      ∀ node,
        sketch.outlineText indent = .error node ↔
          ∃ hole later, sketch.holes = hole :: later ∧ node = ⟨hole.inspected⟩ := by
  obtain ⟨count, bound, passes⟩ := exists_passes_outline refuse sketch indent
  refine ⟨⟨count, bound, _, passes, outlineText_eq_map sketch indent⟩, ?_, ?_⟩
  · intro text
    rw [outlineText_eq, unlessRefused_eq_ok_iff, Option.map_eq_none_iff, List.head?_eq_none_iff]
  · intro node
    rw [outlineText_eq, unlessRefused_eq_error_iff, Option.map_eq_some_iff]
    simp only [List.head?_eq_some_iff]
    constructor
    · rintro ⟨hole, ⟨later, split⟩, rfl⟩
      exact ⟨hole, later, split, rfl⟩
    · rintro ⟨hole, later, split, rfl⟩
      exact ⟨hole, ⟨later, split⟩, rfl⟩

/-- The root stands below level zero, and so does the group in it: neither is indented. -/
example :
    outlineText (.grouping (.grouping (.grouping .empty))) (-2) =
      .ok "Grouping\nGrouping\nGrouping\n  Empty" := by
  cbv

end Sketch

end LoxSyntax
