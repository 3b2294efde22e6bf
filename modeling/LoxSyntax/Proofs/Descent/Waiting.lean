import LoxSyntax.Proofs.Descent.Activation

/-!
# What waits during a descent

At each moment the activations that wait stand inside one another in the order of the ladder:
below an expression the four kinds of chains, the operators in front of an operand and a group,
which holds the next expression (`Awaits`).  The depth of the descent is the number of the groups
among them, and a further group is entered only where there are fewer than `maxNesting`.

Every move keeps to this (`Moment.Sound.move`), so it holds all through a run.  It bounds how many
expressions, and how many activations altogether, wait at a time.
-/

namespace LoxSyntax

open Descent

namespace Level

theorem rank_operand (precedence : Precedence) :
    precedence.operand.rank = precedence.rank + 1 := by
  cases precedence <;> rfl

theorem rank_le (level : Level) : level.rank ≤ 6 := by
  cases level with
  | chain precedence => cases precedence <;> decide
  | unary | primary => decide

end Level

namespace Descent

/-- `Awaits groups rank waiting` when the activations wait, the innermost first, for what is read
at a rank inside so many groups.  An expression has rank `0`. -/
inductive Awaits : (groups rank : Nat) → List Activation → Prop
  | nothing : Awaits 0 0 []
  | expression {groups : Nat} {waiting : List Activation} :
      Awaits groups 0 waiting →
      Awaits groups Level.expression.rank (.expression :: waiting)
  | first {groups : Nat} {precedence : Precedence} {waiting : List Activation} :
      Awaits groups precedence.rank waiting →
      Awaits groups precedence.operand.rank (.first precedence :: waiting)
  | right {groups : Nat} {precedence : Precedence} {left : Expr} {operator : Token}
      {waiting : List Activation} :
      Awaits groups precedence.rank waiting →
      Awaits groups precedence.operand.rank (.right precedence left operator :: waiting)
  | signed {groups : Nat} {operators : List Token} {waiting : List Activation} :
      Awaits groups Level.unary.rank waiting →
      Awaits groups Level.primary.rank (.signed operators :: waiting)
  | group {groups : Nat} {waiting : List Activation} :
      Awaits groups Level.primary.rank waiting →
      Awaits (groups + 1) 0 (.group :: waiting)

namespace Awaits

variable {groups rank : Nat} {waiting : List Activation}

theorem rank_le (awaits : Awaits groups rank waiting) : rank ≤ 6 := by
  cases awaits with
  | nothing | group => exact Nat.zero_le 6
  | expression | first | right | signed => exact Level.rank_le _

theorem count_group (awaits : Awaits groups rank waiting) :
    waiting.count .group = groups := by
  induction awaits with
  | nothing => rfl
  | group _ ih => rw [List.count_cons_self, ih]
  | expression _ ih | first _ ih | right _ ih | signed _ ih =>
      rw [List.count_cons_of_ne (by simp), ih]

/-- Around each group there is an expression, and one more unless another is about to be read. -/
theorem count_expression (awaits : Awaits groups rank waiting) :
    waiting.count .expression = groups + min rank 1 := by
  induction awaits with
  | nothing => rfl
  | expression _ ih =>
      rw [List.count_cons_self, ih]
      rfl
  | @first _ precedence _ _ ih | @right _ precedence _ _ _ _ ih =>
      rw [List.count_cons_of_ne (by simp), ih]
      cases precedence <;> rfl
  | signed _ ih | group _ ih =>
      rw [List.count_cons_of_ne (by simp), ih]
      rfl

theorem length_eq (awaits : Awaits groups rank waiting) :
    waiting.length = 7 * groups + rank := by
  induction awaits with
  | nothing => rfl
  | expression _ ih | signed _ ih | group _ ih =>
      rw [List.length_cons, ih]
      rfl
  | first _ ih | right _ ih =>
      rw [List.length_cons, ih, Level.rank_operand]
      rfl

end Awaits

/-- The rank at which a task reads.  An answer goes to what waits for it, at any rank. -/
def Task.rank? : Task → Option Nat
  | expression => some 0
  | first precedence => some precedence.rank
  | chain precedence _ => some precedence.rank
  | signs _ => some Level.unary.rank
  | primary => some Level.primary.rank
  | group _ => some Level.primary.rank
  | skip _ => some Level.primary.rank
  | answer _ => none

theorem rank?_task (level : Level) (operators : List Token) :
    (level.task operators).rank? = some level.rank := by
  cases level <;> rfl

/-! ## Moves keep to the order -/

namespace Moment

/-- What waits is in order for the task, with as many groups as the depth says, and no more than
may be open. -/
structure Sound (moment : Moment) : Prop where
  awaits : ∃ rank, Awaits moment.descent.depth (moment.task.rank?.getD rank) moment.waiting
  within : moment.descent.depth ≤ maxNesting

theorem sound_ofTokens (list : List Token) : (ofTokens list).Sound :=
  ⟨⟨0, .nothing⟩, Nat.zero_le maxNesting⟩

namespace Sound

variable {descent behind : Descent} {task later : Task} {waiting laterWaiting : List Activation}

theorem of_depth_eq
    {depth : Nat} (reached : behind.depth = depth) (within : depth ≤ maxNesting)
    (awaits : ∃ rank, Awaits depth (later.rank?.getD rank) laterWaiting) :
    Sound ⟨behind, later, laterWaiting⟩ := by
  subst reached
  exact ⟨awaits, within⟩

/-- An answer is taken by what waits for it.  A group gives back the depth that it added. -/
theorem resume
    {activation : Activation} {expr : Expr}
    (sound : Sound ⟨descent, .answer expr, activation :: waiting⟩)
    (resumes : activation.resume expr descent = .ok later behind) :
    Sound ⟨behind, later, waiting⟩ := by
  obtain ⟨taken, rest, depth, diagnostics⟩ := descent
  obtain ⟨⟨rank, awaits⟩, within⟩ := sound
  change Awaits depth rank (activation :: waiting) at awaits
  change depth ≤ maxNesting at within
  cases activation with
  | expression =>
      cases resumes
      cases awaits with
      | expression outer => exact ⟨⟨0, outer⟩, within⟩
  | first precedence =>
      cases resumes
      cases awaits with
      | first outer => exact ⟨⟨0, outer⟩, within⟩
  | right precedence left operator =>
      cases resumes
      cases awaits with
      | right outer => exact ⟨⟨0, outer⟩, within⟩
  | signed operators =>
      cases resumes
      cases awaits with
      | signed outer => exact ⟨⟨_, outer⟩, within⟩
  | group =>
      obtain ⟨_, _, leaves, resumes⟩ := exists_of_bind_ok resumes
      cases leaves
      obtain ⟨_, _, expects, resumes⟩ := exists_of_bind_ok resumes
      have kept := keepsDepth_expect _ _ _ _ _ expects
      cases resumes
      cases awaits with
      | @group groups _ outer =>
          change behind.depth = groups + 1 - 1 at kept
          rw [Nat.add_sub_cancel] at kept
          exact of_depth_eq kept (Nat.le_of_succ_le within) ⟨_, outer⟩

theorem move_primary
    (sound : Sound ⟨descent, .primary, waiting⟩)
    (moves : Task.primary.move waiting descent = .ok (later, laterWaiting) behind) :
    Sound ⟨behind, later, laterWaiting⟩ := by
  obtain ⟨rank, awaits⟩ := sound.awaits
  obtain ⟨literal?, between, accepts, moves⟩ := exists_of_bind_ok moves
  have accepted := keepsDepth_accept _ _ _ _ accepts
  cases literal? with
  | some token =>
      cases moves
      exact of_depth_eq accepted sound.within ⟨_, awaits⟩
  | none =>
      obtain ⟨opens, looked, looks, moves⟩ := exists_of_bind_ok moves
      have kept := (keepsDepth_check _ _ _ _ looks).trans accepted
      cases opens with
      | false =>
          cases moves
          exact of_depth_eq kept sound.within ⟨_, awaits⟩
      | true =>
          obtain ⟨opening, taken, advances, moves⟩ := exists_of_bind_ok moves
          have kept := (keepsDepth_advance _ _ _ advances).trans kept
          cases moves
          exact of_depth_eq kept sound.within ⟨0, awaits⟩

/-- A group adds to the depth where it is entered, and is skipped where the depth is full. -/
theorem move_group
    {opening : Token} (sound : Sound ⟨descent, .group opening, waiting⟩)
    (moves : (Task.group opening).move waiting descent = .ok (later, laterWaiting) behind) :
    Sound ⟨behind, later, laterWaiting⟩ := by
  obtain ⟨rank, awaits⟩ := sound.awaits
  by_cases full : maxNesting ≤ descent.depth
  · rw [move_group_of_full full] at moves
    cases moves
    exact of_depth_eq rfl sound.within ⟨0, awaits⟩
  · rw [move_group_of_room (Nat.lt_of_not_le full)] at moves
    cases moves
    have deeper : descent.deeper.depth = descent.depth + 1 := rfl
    exact of_depth_eq deeper (Nat.lt_of_not_le full) ⟨0, .group awaits⟩

/-- A move keeps what waits in order. -/
theorem move
    (sound : Sound ⟨descent, task, waiting⟩)
    (moves : task.move waiting descent = .ok (later, laterWaiting) behind) :
    Sound ⟨behind, later, laterWaiting⟩ := by
  obtain ⟨rank, awaits⟩ := sound.awaits
  cases task with
  | expression =>
      cases moves
      exact of_depth_eq rfl sound.within ⟨0, .expression awaits⟩
  | first precedence =>
      cases moves
      refine of_depth_eq rfl sound.within ⟨0, ?_⟩
      rw [rank?_task]
      exact .first awaits
  | chain precedence left =>
      obtain ⟨operator?, between, accepts, continues⟩ := exists_of_bind_ok moves
      have kept := keepsDepth_accept _ _ _ _ accepts
      cases operator? with
      | none =>
          cases continues
          exact of_depth_eq kept sound.within ⟨precedence.rank, awaits⟩
      | some operator =>
          cases continues
          refine of_depth_eq kept sound.within ⟨0, ?_⟩
          rw [rank?_task]
          exact .right awaits
  | signs operators =>
      obtain ⟨operator?, between, accepts, continues⟩ := exists_of_bind_ok moves
      have kept := keepsDepth_accept _ _ _ _ accepts
      cases operator? with
      | none =>
          cases continues
          exact of_depth_eq kept sound.within ⟨0, .signed awaits⟩
      | some operator =>
          cases continues
          exact of_depth_eq kept sound.within ⟨0, awaits⟩
  | primary => exact sound.move_primary moves
  | group opening => exact sound.move_group moves
  | skip opened =>
      cases opened with
      | zero =>
          cases moves
          exact of_depth_eq rfl sound.within ⟨_, awaits⟩
      | succ opened =>
          obtain ⟨ended, between, looks, continues⟩ := exists_of_bind_ok moves
          have looked := keepsDepth_check _ _ _ _ looks
          cases ended with
          | true =>
              cases continues
              exact of_depth_eq looked sound.within ⟨_, awaits⟩
          | false =>
              obtain ⟨token, taken, advances, continues⟩ := exists_of_bind_ok continues
              have kept := (keepsDepth_advance _ _ _ advances).trans looked
              cases continues
              exact of_depth_eq kept sound.within ⟨0, awaits⟩
  | answer expr =>
      cases waiting with
      | nil =>
          cases moves
          exact sound
      | cons activation waiting =>
          obtain ⟨task, between, resumes, continues⟩ := exists_of_bind_ok moves
          cases continues
          exact sound.resume resumes

/-- Where no move can be made the moment stays. -/
theorem next {moment : Moment} (sound : moment.Sound) : moment.next.Sound := by
  unfold Moment.next
  split
  · rename_i moves
    exact sound.move moves
  · exact sound

theorem iterate {moment : Moment} (sound : moment.Sound) (count : Nat) :
    (Moment.next^[count] moment).Sound := by
  induction count with
  | zero => exact sound
  | succ count ih =>
      rw [Function.iterate_succ_apply']
      exact ih.next

variable {moment : Moment}

theorem count_group (sound : moment.Sound) :
    moment.waiting.count .group = moment.descent.depth := by
  obtain ⟨rank, awaits⟩ := sound.awaits
  exact awaits.count_group

theorem count_expression_le (sound : moment.Sound) :
    moment.waiting.count .expression ≤ maxNesting + 1 := by
  obtain ⟨⟨rank, awaits⟩, within⟩ := sound
  rw [awaits.count_expression]
  omega

/-- With each group seven activations wait, and six inside the innermost. -/
theorem length_waiting_le (sound : moment.Sound) :
    moment.waiting.length ≤ 7 * maxNesting + 6 := by
  obtain ⟨⟨rank, awaits⟩, within⟩ := sound
  have rankLe := awaits.rank_le
  rw [awaits.length_eq]
  omega

end Sound

end Moment

end Descent

end LoxSyntax
