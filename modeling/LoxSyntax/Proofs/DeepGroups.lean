import LoxSyntax.Proofs.Descent.Skipping
import LoxSyntax.Proofs.Messages
import LoxSyntax.Proofs.Surroundings

/-!
# Groups that are too deep

A group that is too deep is skipped from its opening parenthesis through the partner of that
parenthesis, or up to the end of the input if it has none.  It leaves an empty node and a single
diagnostic; what stands between the parentheses makes no difference at all
(`Descent.exists_parse_deep`).

A diagnostic names a line and no token.  It is about a certain parenthesis if it follows this
parenthesis to every line (`Refuses`); that is so if and only if the parenthesis is taken where 64
groups are open and none is skipped (`refuses_iff`).
-/

namespace LoxSyntax

open Descent

/-- The parser complains that the group which `opening` opens is too deep: on whatever line this
token is, the line is complained about. -/
def Refuses (before : List Token) (opening : Token) (later : List Token) : Prop :=
  ∀ line : Int, ∃ answer descent,
    parse (ofTokens (before ++ { opening with line := line } :: later)) = .ok answer descent ∧
      ⟨line, .nestedTooDeeply⟩ ∈ descent.diagnostics

/-- Some line is behind all tokens of a list. -/
theorem exists_line_gt (tokens : List Token) :
    ∃ line : Int, ∀ token ∈ tokens, token.line < line := by
  induction tokens with
  | nil => exact ⟨0, List.forall_mem_nil _⟩
  | cons first rest ih =>
      obtain ⟨line, behind⟩ := ih
      refine ⟨max line (first.line + 1), ?_⟩
      rw [List.forall_mem_cons]
      refine ⟨by omega, ?_⟩
      intro token member
      have earlier := behind token member
      omega

namespace Groups

variable {limit : Nat}

/-- Groups are skipped only where `limit` groups are open. -/
theorem opened_eq_of_skipped
    {groups : Groups}
    (within : groups.opened ≤ limit)
    (deep : groups.skipped ≠ 0 → groups.opened = limit)
    (tokens : List Token) :
    (groups.behind limit tokens).skipped ≠ 0 → (groups.behind limit tokens).opened = limit := by
  induction tokens generalizing groups with
  | nil => exact deep
  | cons token rest ih =>
      apply ih (opened_step_le within token.kind)
      unfold step
      split
      · by_cases shallow : groups.opened < limit
        · rw [if_pos shallow]
          intro skipped
          simp_all
        · rw [if_neg shallow]
          intro _
          change groups.opened = limit
          omega
      all_goals simp_all

theorem mem_deepOpenings_cons
    {groups : Groups} {token first : Token} {rest : List Token}
    (member : token ∈ groups.deepOpenings limit (first :: rest)) :
    token ∈ rest ∨
      first.kind = .leftParen ∧ groups.opened + groups.skipped = limit := by
  rw [deepOpenings] at member
  by_cases isDeep : first.kind = .leftParen ∧ groups.opened + groups.skipped = limit
  · exact Or.inr isDeep
  · rw [if_neg isDeep] at member
    exact Or.inl ((deepOpenings_sublist limit _ rest).subset member)

end Groups

/-- A line that is complained about is that of a group which is too deep. -/
theorem Reads.exists_deepOpening
    {level : Level} {room : Nat} {tokens : List Token} {next : Token} {expr : Expr}
    {diagnostics : List Diagnostic}
    (reads : Reads level room tokens next expr diagnostics)
    {limit opened : Nat}
    (within : opened + room = limit)
    {line : Int}
    (member : ⟨line, .nestedTooDeeply⟩ ∈ diagnostics) :
    ∃ opening ∈ Groups.deepOpenings limit ⟨opened, 0⟩ tokens, opening.line = line := by
  rw [reads.diagnostics_eq within] at member
  rcases List.mem_append.1 member with isDeep | isUnclosed
  · obtain ⟨opening, isDeepOpening, equality⟩ := List.mem_map.1 isDeep
    injection equality with sameLine
    exact ⟨opening, isDeepOpening, sameLine⟩
  · have equality := List.eq_of_mem_replicate isUnclosed
    injection equality with _ sameProblem
    contradiction

/-- A list that is taken beyond the place of a token holds that token. -/
theorem exists_split_of_length_lt
    {α : Type} {before later items rest : List α} {item next : α}
    (sameList : before ++ item :: later = items ++ next :: rest)
    (longer : before.length < items.length) :
    ∃ others, items = before ++ item :: others ∧ later = others ++ next :: rest := by
  rcases List.append_eq_append_iff.1 sameList with ⟨between, rfl, behind⟩ | ⟨between, rfl, _⟩
  · cases between with
    | nil => simp at longer
    | cons first others =>
        obtain ⟨rfl, later⟩ := List.cons.inj behind
        exact ⟨others, rfl, later⟩
  · rw [List.length_append] at longer
    omega

/-- A parenthesis that is complained about on a line where no other token is was taken where
`limit` groups are open. -/
theorem Reads.full_of_complaint
    {room : Nat} {before later tokens rest : List Token} {opening next : Token} {expr : Expr}
    {diagnostics : List Diagnostic}
    (reads : Reads .expression room tokens next expr diagnostics)
    (sameList : before ++ opening :: later = tokens ++ next :: rest)
    (fresh : ∀ token ∈ before ++ later, token.line < opening.line)
    (complains : ⟨opening.line, .nestedTooDeeply⟩ ∈ diagnostics) :
    opening.kind = .leftParen ∧
      Groups.behind room ⟨0, 0⟩ before = ⟨room, 0⟩ ∧
      ∃ others, tokens = before ++ opening :: others ∧ later = others ++ next :: rest := by
  obtain ⟨token, isDeep, sameLine⟩ := reads.exists_deepOpening (Nat.zero_add room) complains
  have notElsewhere : token ∉ before ++ later := by
    intro member
    have earlier := fresh token member
    omega
  rw [List.mem_append, not_or] at notElsewhere
  have notBefore {items : List Token} (sublist : items.Sublist before) :
      token ∉ Groups.deepOpenings room ⟨0, 0⟩ items := by
    intro member
    exact notElsewhere.1 (sublist.subset ((Groups.deepOpenings_sublist _ _ _).subset member))
  by_cases isTaken : before.length < tokens.length
  · obtain ⟨others, rfl, rfl⟩ := exists_split_of_length_lt sameList isTaken
    rw [Groups.deepOpenings_append, List.mem_append] at isDeep
    have atOpening := isDeep.resolve_left (notBefore (List.Sublist.refl _))
    rcases Groups.mem_deepOpenings_cons atOpening with member | ⟨isOpening, isFull⟩
    · exact absurd (List.mem_append_left _ member) notElsewhere.2
    · have outside : (⟨0, 0⟩ : Groups).skipped ≠ 0 → (⟨0, 0⟩ : Groups).opened = room := by simp
      have deep := Groups.opened_eq_of_skipped (Nat.zero_le room) outside before
      refine ⟨isOpening, ?_, others, rfl, rfl⟩
      apply Groups.ext <;> simp only [] <;> omega
  · have inFront : tokens <+: before ++ opening :: later :=
      sameList ▸ List.prefix_append tokens (next :: rest)
    have shorter : tokens <+: before :=
      List.prefix_of_prefix_length_le inFront (List.prefix_append _ _) (Nat.le_of_not_lt isTaken)
    exact absurd isDeep (notBefore shorter.sublist)

/-! ## Lists with a group that is too deep -/

/-- `Stops list expr diagnostics rest` when a fresh descent on the list comes to a tree, with
diagnostics, in front of `rest`. -/
def Stops (list : List Token) (expr : Expr) (diagnostics : List Diagnostic)
    (rest : List Token) : Prop :=
  ∃ descent,
    parse (ofTokens list) = .ok (verdict expr diagnostics) descent ∧
      descent.diagnostics = diagnostics ∧
      descent.rest = rest

/-- `LeavesEmpty before group behind front line` when the moves on these tokens come to an operand
at the greatest depth behind `before`, with `front` recorded.  From there they take `group`, record
a group that is too deep on the line, and answer with an empty node. -/
def LeavesEmpty (before group behind : List Token) (front : List Diagnostic)
    (line : Int) : Prop :=
  ∃ waiting,
    let descent : Descent := ⟨before.reverse, group ++ behind, 64, front⟩
    Moment.Leads (.ofTokens (before ++ (group ++ behind))) ⟨descent, .primary, waiting⟩ ∧
      Moment.Leads ⟨descent, .primary, waiting⟩
        ⟨descent.past group [⟨line, .nestedTooDeeply⟩], .answer .empty, waiting⟩

theorem not_mem_unaryOperators_of_opening
    {opening : Token} (isOpening : opening.kind = .leftParen) :
    opening.kind ∉ TokenKind.unaryOperators := by
  rw [isOpening]
  decide

theorem exists_eq_headD_cons (after : List Token) (next : Token) (rest : List Token) :
    ∃ others, after ++ next :: rest = after.headD next :: others := by
  cases after with
  | nil => exact ⟨rest, rfl⟩
  | cons first after => exact ⟨after ++ next :: rest, rfl⟩

/-- A list that goes on with a place for an operand behind `before`, at the greatest depth. -/
structure Place (before after : List Token) (next : Token) (context : Context)
    (front back : List Diagnostic) : Prop where
  surrounds : Surrounds .expression maxNesting before after next context front back
  stops : next.kind ∉ Level.expression.operators

namespace Place

variable {before after : List Token} {next : Token} {context : Context}
  {front back : List Diagnostic}

theorem reads
    (place : Place before after next context front back)
    {token : Token} {tokens : List Token} {operand : Expr} {diagnostics : List Diagnostic}
    (notOperator : token.kind ∉ TokenKind.unaryOperators)
    (reads : Reads .primary 0 (token :: tokens) (after.headD next) operand diagnostics) :
    Reads .expression maxNesting (before ++ (token :: tokens ++ after)) next
      (context.plug operand) (front ++ diagnostics ++ back) :=
  place.surrounds.reads notOperator reads

theorem stopsBehind
    (place : Place before after next context front back)
    {token : Token} {tokens : List Token} {operand : Expr} {diagnostics : List Diagnostic}
    (notOperator : token.kind ∉ TokenKind.unaryOperators)
    (reads : Reads .primary 0 (token :: tokens) (after.headD next) operand diagnostics)
    (rest : List Token) :
    Stops (before ++ token :: (tokens ++ (after ++ next :: rest))) (context.plug operand)
      (front ++ diagnostics ++ back) (next :: rest) := by
  have parses := (place.reads notOperator reads).parses place.stops rest
  have sameList :
      before ++ (token :: tokens ++ after) ++ next :: rest =
        before ++ token :: (tokens ++ (after ++ next :: rest)) := by
    simp
  have run := parses.parse_eq
  have behind := parses.drop_past
  rw [List.drop_left] at behind
  rw [sameList] at run behind
  exact ⟨_, run, rfl, behind⟩

theorem leavesEmpty
    (place : Place before after next context front back)
    {opening : Token} {group : List Token}
    (isOpening : opening.kind = .leftParen)
    (skips : Skips 1 group (after.headD next))
    (rest : List Token) :
    LeavesEmpty before (opening :: group) (after ++ next :: rest) front opening.line := by
  obtain ⟨others, inFront⟩ := exists_eq_headD_cons after next rest
  have notOperator := not_mem_unaryOperators_of_opening isOpening
  have ahead :
      (ofTokens (before ++ (opening :: group ++ (after ++ next :: rest)))).rest =
        before ++ opening :: (group ++ (after ++ next :: rest)) :=
    rfl
  obtain ⟨waiting, leads⟩ :=
    place.surrounds.reaches [] [.expression] ahead notOperator (Nat.zero_add maxNesting)
  have arrived :
      { (ofTokens (before ++ (opening :: group ++ (after ++ next :: rest)))).past before front
          with depth := maxNesting } =
        ⟨before.reverse, opening :: group ++ (after ++ next :: rest), 64, front⟩ := by
    simp [past, ofTokens, maxNesting]
  rw [arrived] at leads
  refine ⟨waiting, .move rfl leads, ?_⟩
  rw [inFront]
  exact (Reads.deep isOpening skips).leads rfl rfl [] waiting

end Place

/-- What stands behind a group that is too deep is read in its place, which is the same for every
group that can stand there. -/
theorem exists_place
    {before tokens : List Token} {opening next : Token} {expr : Expr}
    {diagnostics : List Diagnostic}
    (reads : Reads .expression maxNesting (before ++ opening :: tokens) next expr diagnostics)
    (stops : next.kind ∉ Level.expression.operators)
    (isOpening : opening.kind = .leftParen)
    (full : Groups.behind 64 ⟨0, 0⟩ before = ⟨64, 0⟩) :
    ∃ skipped after context front back,
      tokens = skipped ++ after ∧
        Skips 1 skipped (after.headD next) ∧
        Place before after next context front back := by
  have within : 0 + maxNesting = 64 := rfl
  obtain ⟨skipped, after, context, front, back, rfl, skips, _, _, surrounds⟩ :=
    reads.exists_surrounding rfl isOpening within full
  exact ⟨skipped, after, context, front, back, rfl, skips, surrounds, stops⟩

theorem Refuses.exists_place
    {before later : List Token} {opening : Token}
    (refuses : Refuses before opening later)
    (ended : Ended later) :
    ∃ skipped after next rest context front back,
      later = skipped ++ (after ++ next :: rest) ∧
        opening.kind = .leftParen ∧
        Groups.behind 64 ⟨0, 0⟩ before = ⟨64, 0⟩ ∧
        Skips 1 skipped (after.headD next) ∧
        Place before after next context front back := by
  obtain ⟨line, fresh⟩ := exists_line_gt (before ++ later)
  obtain ⟨answer, descent, run, complains⟩ := refuses line
  have markedEnded : Ended (before ++ { opening with line := line } :: later) := by
    rw [ended_append_iff, ended_cons_iff]
    exact Or.inr (Or.inr ended)
  obtain ⟨tokens, next, rest, expr, diagnostics, sameList, _, reads, stops⟩ :=
    exists_reads .expression maxNesting markedEnded
  have parses := (reads.parses stops rest).parse_eq
  rw [← sameList, run] at parses
  injection parses with _ moved
  rw [moved] at complains
  obtain ⟨isOpening, full, others, rfl, rfl⟩ := reads.full_of_complaint sameList fresh complains
  obtain ⟨skipped, after, context, front, back, rfl, skips, place⟩ :=
    LoxSyntax.exists_place reads stops isOpening full
  exact ⟨skipped, after, next, rest, context, front, back, by simp, isOpening, full, skips,
    place⟩

/-- A group is too deep if and only if its parenthesis is taken where 64 groups are open and none
is skipped. -/
theorem refuses_iff
    {before later : List Token} {opening : Token}
    (ended : Ended later) :
    Refuses before opening later ↔
      opening.kind = .leftParen ∧
        Groups.behind 64 ⟨0, 0⟩ before = ⟨64, 0⟩ ∧
        ∃ answer descent,
          parse (ofTokens (before ++ opening :: later)) = .ok answer descent ∧
            before.length < descent.position := by
  constructor
  · intro refuses
    obtain ⟨skipped, after, next, rest, context, front, back, rfl, isOpening, full, skips,
      place⟩ := refuses.exists_place ended
    refine ⟨isOpening, full, ?_⟩
    have notOperator := not_mem_unaryOperators_of_opening isOpening
    have reads := place.reads notOperator (.deep isOpening skips)
    have parses := reads.parses place.stops rest
    have sameList :
        before ++ (opening :: skipped ++ after) ++ next :: rest =
          before ++ opening :: (skipped ++ (after ++ next :: rest)) := by
      simp
    have run := parses.parse_eq
    have position := parses.position_past
    rw [sameList] at run position
    refine ⟨_, _, run, ?_⟩
    rw [position]
    simp
  · rintro ⟨isOpening, full, answer, descent, run, isTaken⟩ line
    have listEnded : Ended (before ++ opening :: later) := by
      rw [ended_append_iff, ended_cons_iff]
      exact Or.inr (Or.inr ended)
    obtain ⟨tokens, next, rest, expr, diagnostics, sameList, _, reads, stops⟩ :=
      exists_reads .expression maxNesting listEnded
    have parses := reads.parses stops rest
    have whole := parses.parse_eq
    have position := parses.position_past
    rw [← sameList, run] at whole
    injection whole with _ moved
    rw [← sameList, ← moved] at position
    rw [position] at isTaken
    obtain ⟨others, rfl, rfl⟩ := exists_split_of_length_lt sameList isTaken
    obtain ⟨skipped, after, context, front, back, rfl, skips, place⟩ :=
      LoxSyntax.exists_place reads stops isOpening full
    have isMarked : ({ opening with line := line } : Token).kind = .leftParen := isOpening
    obtain ⟨markedDescent, markedRun, isComplaint, _⟩ :=
      place.stopsBehind (not_mem_unaryOperators_of_opening isMarked) (.deep isMarked skips) rest
    rw [← List.append_assoc skipped] at markedRun
    refine ⟨_, markedDescent, markedRun, ?_⟩
    rw [isComplaint]
    simp

/-- Around a group that is too deep a context is read that does not depend on it.  The moves take
the group from its parenthesis through the partner of this, record one diagnostic, answer with an
empty node and go on behind the group.  Whatever is enclosed by the two parentheses, the tree, the
diagnostics and the tokens that are left are the same; with a literal in the place of the group
they are those without its node and its diagnostic.  A parenthesis without a partner is skipped
up to the first token that ends the input. -/
theorem Descent.exists_parse_deep
    {before later : List Token} {opening : Token}
    (refuses : Refuses before opening later)
    (ended : Ended later) :
    ∃ (context : Context) (front back : List Diagnostic) (rest : List Token),
      let deep : Diagnostic := ⟨opening.line, .nestedTooDeeply⟩
      (∀ (inside : List Token) (closing : Token) (behind : List Token),
        later = inside ++ closing :: behind →
        Enclosed inside →
        closing.kind = .rightParen →
        rest <:+ behind ∧
          (∀ other, Enclosed other →
            let group := opening :: other ++ [closing]
            LeavesEmpty before group behind front opening.line ∧
              Stops (before ++ (group ++ behind)) (context.plug .empty)
                (front ++ deep :: back) rest) ∧
          ∀ literal : Token, literal.kind ∈ TokenKind.literals →
            Stops (before ++ literal :: behind) (context.plug (Ladder.literal literal))
              (front ++ back) rest) ∧
      (¬ Partnered later →
        ∃ skipped last behind,
          later = skipped ++ last :: behind ∧
            ¬ Ended skipped ∧
            last.kind = .endOfInput ∧
            LeavesEmpty before (opening :: skipped) (last :: behind) front opening.line ∧
            Stops (before ++ opening :: later) (context.plug .empty) (front ++ deep :: back)
              (last :: behind)) := by
  obtain ⟨skipped, after, next, rest, context, front, back, rfl, isOpening, _, skips, place⟩ :=
    refuses.exists_place ended
  have notOperator := not_mem_unaryOperators_of_opening isOpening
  obtain ⟨others, inFront⟩ := exists_eq_headD_cons after next rest
  refine ⟨context, front, back, next :: rest, ?_, ?_⟩
  · intro inside closing behind split enclosed isClosing
    have behindEnded : Ended behind := by
      rw [split, ended_append_iff, ended_cons_iff, isClosing] at ended
      exact (ended.resolve_left enclosed.goesOn).resolve_left (by decide)
    have isBehind : after ++ next :: rest = behind := by
      rw [inFront] at split ⊢
      exact skips.eq_enclosed enclosed isClosing behindEnded split
    subst isBehind
    refine ⟨List.suffix_append _ _, ?_, ?_⟩
    · intro other otherEnclosed
      have otherSkips := otherEnclosed.skips isClosing (after.headD next)
      refine ⟨place.leavesEmpty isOpening otherSkips rest, ?_⟩
      simpa using place.stopsBehind notOperator (.deep isOpening otherSkips) rest
    · intro literal isLiteral
      have notSign : literal.kind ∉ TokenKind.unaryOperators := by
        intro isSign
        exact TokenKind.not_mem_literals_of_mem_unaryOperators isSign isLiteral
      simpa using place.stopsBehind notSign (.literal isLiteral) rest
  · intro unpartnered
    rw [inFront] at unpartnered
    have isEnd := skips.reaches_end unpartnered
    have nothing : after = [] := by
      cases after with
      | nil => rfl
      | cons first after =>
          have goesOn := (place.reads notOperator (.deep isOpening skips)).not_ended
          refine absurd ⟨first, ?_, isEnd⟩ goesOn
          simp
    subst nothing
    refine ⟨skipped, next, rest, rfl, skips.not_ended, isEnd, ?_, ?_⟩
    · exact place.leavesEmpty isOpening skips rest
    · simpa using place.stopsBehind notOperator (.deep isOpening skips) rest

/-- The parentheses around 64 groups and the end of the input. -/
def closersOf64 : List Token :=
  List.replicate 64 (.bare .rightParen) ++ [.bare .endOfInput]

/-- Inside of 64 groups the group `(nil)` on the second line is too deep.  With `((-))` in its
place there is the same tree and the same complaint. -/
theorem parse_deep_nil :
    Refuses (List.replicate 64 (.bare .leftParen)) ⟨.leftParen, none, .nil, 2⟩
        (.bare .nilWord :: .bare .rightParen :: closersOf64) ∧
      Ended (.bare .nilWord :: .bare .rightParen :: closersOf64) ∧
      Stops
        (List.replicate 64 (.bare .leftParen) ++
          (⟨.leftParen, none, .nil, 2⟩ ::
            [.leftParen, .minus, .rightParen, .rightParen].map Token.bare ++ closersOf64))
        (Tree.grouping^[64] .empty) [⟨2, .nestedTooDeeply⟩] [.bare .endOfInput] := by
  have run :
      parse (ofTokens (List.replicate 64 (.bare .leftParen) ++
          ⟨.leftParen, none, .nil, 2⟩ :: .bare .nilWord :: .bare .rightParen :: closersOf64)) =
        .ok (verdict (Tree.grouping^[64] .empty) [⟨2, .nestedTooDeeply⟩])
          ⟨List.replicate 65 (.bare .rightParen) ++
              .bare .nilWord :: ⟨.leftParen, none, .nil, 2⟩ ::
                List.replicate 64 (.bare .leftParen),
            [.bare .endOfInput], 0, [⟨2, .nestedTooDeeply⟩]⟩ := by
    decide +kernel
  have ended : Ended (.bare .nilWord :: .bare .rightParen :: closersOf64) :=
    ⟨.bare .endOfInput, by decide, rfl⟩
  have refuses :
      Refuses (List.replicate 64 (.bare .leftParen)) ⟨.leftParen, none, .nil, 2⟩
        (.bare .nilWord :: .bare .rightParen :: closersOf64) :=
    (refuses_iff ended).2 ⟨rfl, by decide, _, _, run, by decide⟩
  obtain ⟨context, front, back, rest, skipped, _⟩ := exists_parse_deep refuses ended
  have enclosed : Enclosed [.bare .nilWord] := .plain ⟨by decide, by decide, by decide⟩ .nil
  have negation : Enclosed ([.leftParen, .minus, .rightParen].map Token.bare) :=
    .group rfl (.plain ⟨by decide, by decide, by decide⟩ .nil) rfl .nil
  obtain ⟨_, emptied, _⟩ :=
    skipped [.bare .nilWord] (.bare .rightParen) closersOf64 rfl enclosed rfl
  obtain ⟨descent, parses, recorded, stops⟩ := (emptied _ enclosed).2
  have sameRun := run.symm.trans parses
  injection sameRun with isAnswer isDescent
  rw [← isDescent] at recorded stops
  have isTree := congrArg bestEffort? isAnswer
  rw [bestEffort?_verdict, bestEffort?_verdict] at isTree
  have other := (emptied _ negation).2
  rw [← recorded, ← stops, ← Option.some.inj isTree] at other
  exact ⟨refuses, ended, other⟩

end LoxSyntax
