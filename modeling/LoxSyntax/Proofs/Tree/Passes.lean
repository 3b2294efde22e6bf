import LoxSyntax.Proofs.Tree.Pending
import Mathlib.Algebra.Ring.Nat

/-!
# Pass by pass

The nodes of a tree are worked off in passes, to show it in prefix form or as an outline.  A pass
takes the first of the pending items, writes what is to be written for it, and puts further items
in its place; or nothing can be written for it, and this is the last pass.

What is put in the place of an item is less work than the item, so that the passes come to an end
(`exists_passes`).  An outline takes no more of them than the tree has nodes
(`exists_passes_outline`), and a prefix form no more than five times as many
(`exists_passes_prefixForm`).
-/

namespace LoxSyntax.Tree

variable {ι α ε : Type}

/-- `Passes write inPlace count items outcome` when the pending items are worked off in so many
passes, with everything that is written as the outcome, or the error of the last pass. -/
inductive Passes (write : ι → Except ε (List String)) (inPlace : ι → List ι) :
    Nat → List ι → Except ε (List String) → Prop
  | done :
      Passes write inPlace 0 [] (.ok [])
  | refused {item : ι} {items : List ι} {error : ε} :
      write item = .error error →
      Passes write inPlace 1 (item :: items) (.error error)
  | passed {count : Nat} {item : ι} {items : List ι} {written : List String}
      {outcome : Except ε (List String)} :
      write item = .ok written →
      Passes write inPlace count (inPlace item ++ items) outcome →
      Passes write inPlace (count + 1) (item :: items) (outcome.map (written ++ ·))

/-- Items are worked off in no more passes than they are work, if what is put in the place of an
item is less work than the item. -/
theorem exists_passes
    (write : ι → Except ε (List String)) {inPlace : ι → List ι} {work : ι → Nat}
    (lowers : ∀ item, ((inPlace item).map work).sum < work item) (items : List ι) :
    ∃ count ≤ (items.map work).sum, ∃ outcome, Passes write inPlace count items outcome := by
  match items with
  | [] => exact ⟨0, Nat.le_refl 0, _, .done⟩
  | item :: items =>
      have less := lowers item
      rw [List.map_cons, List.sum_cons]
      cases writes : write item with
      | error error => exact ⟨1, by omega, _, .refused writes⟩
      | ok written =>
          obtain ⟨count, bound, outcome, passes⟩ :=
            exists_passes write lowers (inPlace item ++ items)
          rw [List.map_append, List.sum_append] at bound
          exact ⟨count + 1, by omega, _, .passed writes passes⟩
termination_by (items.map work).sum
decreasing_by
  simp only [List.map_append, List.map_cons, List.sum_append, List.sum_cons]
  omega

namespace Pending

/-- What is written for a pending item. -/
def write (showHole : α → Except ε String) : Pending α → Except ε (List String)
  | text content => .ok [content]
  | node (literal value) => .ok [value.written]
  | node empty => .ok ["<empty>"]
  | node (hole content) => (showHole content).map fun shown => [shown]
  | node (grouping _) | node (unary _ _) | node (binary _ _ _) => .ok []

/-- The texts and operands that are put in the place of a pending item. -/
def inPlace : Pending α → List (Pending α)
  | node (grouping inner) => [text "(group ", node inner, text ")"]
  | node (unary operator right) =>
      [text ("(" ++ operatorText operator ++ " "), node right, text ")"]
  | node (binary left operator right) =>
      [text ("(" ++ operatorText operator ++ " "), node left, text " ", node right, text ")"]
  | text _ | node (literal _) | node empty | node (hole _) => []

theorem work_inPlace_lt (item : Pending α) : (item.inPlace.map work).sum < item.work := by
  cases item with
  | text content => simp [inPlace, work]
  | node tree =>
      cases tree <;> simp only [inPlace, work, size, List.map_cons, List.map_nil, List.sum_cons,
        List.sum_nil] <;> omega

end Pending

/-- One pass of the prefix form. -/
theorem emitPrefixForm_cons
    (showHole : α → Except ε String) (before : String) (item : Pending α)
    (items : List (Pending α)) :
    emitPrefixForm showHole before (item :: items) =
      (do
        let written ← item.write showHole
        emitPrefixForm showHole (before ++ String.join written) (item.inPlace ++ items)) := by
  cases item with
  | text content => simp [emitPrefixForm, Pending.write, Pending.inPlace, bind, Except.bind]
  | node tree =>
      cases tree with
      | hole content =>
          rw [emitPrefixForm, Pending.write]
          cases showHole content <;>
            simp [Pending.inPlace, bind, Except.bind, Except.map]
      | _ => simp [emitPrefixForm, Pending.write, Pending.inPlace, bind, Except.bind]

theorem Passes.emitPrefixForm_eq
    {showHole : α → Except ε String} {count : Nat} {items : List (Pending α)}
    {outcome : Except ε (List String)}
    (passes : Passes (Pending.write showHole) Pending.inPlace count items outcome)
    (before : String) :
    emitPrefixForm showHole before items =
      outcome.map fun written => before ++ String.join written := by
  induction passes generalizing before with
  | done => simp [emitPrefixForm, Except.map, pure, Except.pure]
  | refused writes =>
      rw [emitPrefixForm_cons, writes]
      rfl
  | @passed count item items written outcome writes _ ih =>
      rw [emitPrefixForm_cons, writes]
      change emitPrefixForm _ _ _ = _
      rw [ih]
      cases outcome with
      | ok later => simp [Except.map, String.append_assoc]
      | error error => rfl

/-- A prefix form takes no more than five passes for each node. -/
theorem exists_passes_prefixForm (showHole : α → Except ε String) (tree : Tree α) :
    ∃ count ≤ 5 * tree.size, ∃ outcome,
      Passes (Pending.write showHole) Pending.inPlace count [.node tree] outcome ∧
        tree.toPrefixForm showHole = outcome.map String.join := by
  obtain ⟨count, bound, outcome, passes⟩ :=
    exists_passes (Pending.write showHole) Pending.work_inPlace_lt [.node tree]
  refine ⟨count, ?_, outcome, passes, ?_⟩
  · simpa [Pending.work] using bound
  · rw [toPrefixForm, passes.emitPrefixForm_eq]
    simp

/-- The line that is written for a pending node at its level. -/
def writeLine (showHole : α → Except ε String) : Int × Tree α → Except ε (List String)
  | (level, literal value) => .ok [outlineLine level ("Literal " ++ value.written)]
  | (level, grouping _) => .ok [outlineLine level "Grouping"]
  | (level, unary operator _) => .ok [outlineLine level ("Unary " ++ operatorText operator)]
  | (level, binary _ operator _) => .ok [outlineLine level ("Binary " ++ operatorText operator)]
  | (level, empty) => .ok [outlineLine level "Empty"]
  | (level, hole content) => (showHole content).map fun label => [outlineLine level label]

/-- The operands of a pending node, which are put in its place, one level deeper. -/
def operands : Int × Tree α → List (Int × Tree α)
  | (level, grouping inner) => [(level + 1, inner)]
  | (level, unary _ right) => [(level + 1, right)]
  | (level, binary left _ right) => [(level + 1, left), (level + 1, right)]
  | (_, literal _) | (_, empty) | (_, hole _) => []

theorem size_operands_lt (item : Int × Tree α) :
    ((operands item).map fun operand => operand.2.size).sum < item.2.size := by
  obtain ⟨level, tree⟩ := item
  cases tree <;> simp [operands, size]

/-- One pass of an outline. -/
theorem emitOutline_pass
    (showHole : α → Except ε String) (before : List String) (item : Int × Tree α)
    (items : List (Int × Tree α)) :
    emitOutline showHole before (item :: items) =
      (do
        let written ← writeLine showHole item
        emitOutline showHole (written.reverse ++ before) (operands item ++ items)) := by
  obtain ⟨level, tree⟩ := item
  cases tree with
  | hole content =>
      rw [emitOutline, writeLine]
      cases showHole content <;> simp [operands, bind, Except.bind, Except.map]
  | _ => simp [emitOutline, writeLine, operands, bind, Except.bind]

theorem Passes.emitOutline_eq
    {showHole : α → Except ε String} {count : Nat} {items : List (Int × Tree α)}
    {outcome : Except ε (List String)}
    (passes : Passes (writeLine showHole) operands count items outcome)
    (before : List String) :
    emitOutline showHole before items = outcome.map fun written => before.reverse ++ written := by
  induction passes generalizing before with
  | done => simp [emitOutline, Except.map, pure, Except.pure]
  | refused writes =>
      rw [emitOutline_pass, writes]
      rfl
  | @passed count item items written outcome writes _ ih =>
      rw [emitOutline_pass, writes]
      change emitOutline _ _ _ = _
      rw [ih]
      cases outcome with
      | ok later => simp [Except.map]
      | error error => rfl

/-- An outline takes no more than one pass for each node. -/
theorem exists_passes_outline
    (showHole : α → Except ε String) (tree : Tree α) (level : Int) :
    ∃ count ≤ tree.size,
      Passes (writeLine showHole) operands count [(level, tree)]
        (tree.toOutline showHole level) := by
  obtain ⟨count, bound, outcome, passes⟩ :=
    exists_passes (writeLine showHole) size_operands_lt [(level, tree)]
  have shown : tree.toOutline showHole level = outcome := by
    rw [toOutline, passes.emitOutline_eq]
    cases outcome <;> rfl
  refine ⟨count, by simpa using bound, ?_⟩
  rw [shown]
  exact passes

end LoxSyntax.Tree
