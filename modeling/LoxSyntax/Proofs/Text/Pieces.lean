import Mathlib.Algebra.Ring.Nat

/-!
# Pieces between line feeds

Texts that are joined with a line feed between them have a piece each, and one more for each line
feed in them (`length_pieces_intercalate`).  So the pieces are the texts again if and only if there
is no line feed in any of them (`pieces_intercalate_eq_iff`).
-/

namespace LoxSyntax.Text

/-- The pieces of a text between its line feeds, of which there is always one. -/
def pieces (text : String) : List String :=
  (text.toList.splitOn '\n').map String.ofList

/-- How many line feeds there are in a text. -/
def lineFeeds (text : String) : Nat :=
  text.toList.count '\n'

theorem lineFeeds_append (first second : String) :
    lineFeeds (first ++ second) = lineFeeds first + lineFeeds second := by
  rw [lineFeeds, String.toList_append, List.count_append]
  rfl

theorem lineFeeds_eq_zero_iff {text : String} : lineFeeds text = 0 ↔ '\n' ∉ text.toList :=
  List.count_eq_zero

theorem length_pieces (text : String) : (pieces text).length = lineFeeds text + 1 := by
  rw [pieces, lineFeeds, List.length_map]
  induction text.toList with
  | nil => rfl
  | cons character rest ih =>
      rw [List.splitOn_cons_eq_if_modifyHead, List.count_cons]
      by_cases isLineFeed : character = '\n'
      · simp [isLineFeed, ih]
      · simp [isLineFeed, ih]

theorem pieces_append (first second : String) :
    pieces (first ++ "\n" ++ second) = pieces first ++ pieces second := by
  have characters :
      (first ++ "\n" ++ second).toList = first.toList ++ '\n' :: second.toList := by
    simp
  rw [pieces, characters, List.splitOn_append_cons_self, List.map_append]
  rfl

section Joined

variable {texts : List String} (notNil : texts ≠ [])

include notNil

/-- Texts without line feeds in them are told apart again. -/
theorem pieces_intercalate (single : ∀ text ∈ texts, '\n' ∉ text.toList) :
    pieces ("\n".intercalate texts) = texts := by
  have characters :
      ("\n".intercalate texts).toList = ['\n'].intercalate (texts.map String.toList) := by
    rw [String.toList_intercalate]
    rfl
  rw [pieces, characters, List.splitOn_intercalate]
  · simp [Function.comp_def]
  · simpa using single
  · simpa using notNil

/-- Joined texts have a piece each, and one more for each line feed in them. -/
theorem length_pieces_intercalate :
    (pieces ("\n".intercalate texts)).length = texts.length + (texts.map lineFeeds).sum := by
  induction texts with
  | nil => exact absurd rfl notNil
  | cons first others ih =>
      cases others with
      | nil =>
          rw [String.intercalate_singleton, length_pieces]
          exact Nat.add_comm _ 1
      | cons second later =>
          rw [String.intercalate_cons_cons, pieces_append, List.length_append, length_pieces,
            ih (List.cons_ne_nil second later)]
          simp only [List.map_cons, List.sum_cons, List.length_cons]
          omega

theorem pieces_intercalate_eq_iff :
    pieces ("\n".intercalate texts) = texts ↔ (texts.map lineFeeds).sum = 0 := by
  constructor
  · intro same
    have lengths := length_pieces_intercalate notNil
    rw [same] at lengths
    omega
  · intro none
    rw [List.sum_eq_zero_iff_forall_eq_nat] at none
    apply pieces_intercalate notNil
    intro text member
    exact lineFeeds_eq_zero_iff.1 (none _ (List.mem_map_of_mem member))

end Joined

end LoxSyntax.Text
