import LoxSyntax.Proofs.Acceptance
import LoxSyntax.Proofs.Repair
import LoxSyntax.Proofs.Tree.Literals

/-!
# Groups in the place of literals

An operand that is read on its own without a complaint can be put between parentheses in the
place of any literal, as long as its groups fit (`Reads.substituted`).  Neither reading depends
on the other: the operand is read alike at every depth and in front of every token that ends it
(`Reads.fits`), and what is around it sees an operand only.
-/

namespace LoxSyntax

section Split

variable {α : Type} {first last middle item : α} {items lefts rights before after : List α}

theorem split_cons
    (different : first ≠ item)
    (split : first :: items = before ++ item :: after) :
    ∃ others, before = first :: others ∧ items = others ++ item :: after := by
  cases before with
  | nil => exact absurd (List.cons.inj split).1 different
  | cons other others =>
      obtain ⟨rfl, later⟩ := List.cons.inj split
      exact ⟨others, rfl, later⟩

theorem split_append_cons
    (different : middle ≠ item)
    (split : lefts ++ middle :: rights = before ++ item :: after) :
    (∃ others, before = lefts ++ middle :: others ∧ rights = others ++ item :: after) ∨
      ∃ others, lefts = before ++ item :: others ∧ after = others ++ middle :: rights := by
  rcases List.append_eq_append_iff.1 split with ⟨between, rfl, later⟩ | ⟨between, rfl, later⟩
  · obtain ⟨others, rfl, behind⟩ := split_cons different later
    exact Or.inl ⟨others, rfl, behind⟩
  · obtain ⟨others, rfl, behind⟩ := split_cons (Ne.symm different) later
    exact Or.inr ⟨others, rfl, behind⟩

theorem split_concat
    (different : last ≠ item)
    (split : items ++ [last] = before ++ item :: after) :
    ∃ others, items = before ++ item :: others ∧ after = others ++ [last] := by
  rcases split_append_cons different split with ⟨others, _, none⟩ | inFront
  · simp at none
  · exact inFront

end Split

/-- What is read without a complaint closes all groups that it opens. -/
theorem Reads.balanced
    {level : Level} {room : Nat} {tokens : List Token} {next : Token} {expr : Expr}
    {diagnostics : List Diagnostic}
    (reads : Reads level room tokens next expr diagnostics)
    (clean : diagnostics = []) :
    Balanced tokens := by
  induction reads with
  | literal isLiteral =>
      have plain := TokenKind.plain_of_mem_literals isLiteral
      exact .plain plain.notOpening plain.notClosing .nil
  | missing => exact .nil
  | closed isOpening _ isClosing ih => exact .group isOpening (ih clean) isClosing .nil
  | unclosed => simp at clean
  | deep => simp at clean
  | operand _ _ ih => exact ih clean
  | unary isOperator _ ih =>
      have plain := TokenKind.plain_of_mem_unaryOperators isOperator
      exact .plain plain.notOpening plain.notClosing (ih clean)
  | single _ _ ih => exact ih clean
  | binary _ isOperator _ _ leftIh rightIh =>
      have plain := Precedence.plain_of_mem isOperator
      obtain ⟨leftClean, rightClean⟩ := List.append_eq_nil_iff.1 clean
      exact (leftIh leftClean).append
        (.plain plain.notOpening plain.notClosing (rightIh rightClean))

/-- What is read without a complaint is read wherever there is room for its groups. -/
theorem Reads.fits
    {level : Level} {room : Nat} {tokens : List Token} {next : Token} {expr : Expr}
    {diagnostics : List Diagnostic}
    (reads : Reads level room tokens next expr diagnostics)
    (clean : diagnostics = [])
    {other : Nat}
    (bound : nesting tokens ≤ other) :
    Reads level other tokens next expr [] := by
  induction reads generalizing other with
  | literal isLiteral => exact .literal isLiteral
  | missing notLiteral notOpening => exact .missing notLiteral notOpening
  | closed isOpening inner isClosing ih =>
      rw [nesting_group isOpening (inner.balanced clean) isClosing] at bound
      obtain ⟨other, rfl⟩ := Nat.exists_eq_add_of_le' (Nat.le_trans (Nat.le_add_left 1 _) bound)
      exact .closed isOpening (ih clean (Nat.le_of_succ_le_succ bound)) isClosing
  | unclosed => simp at clean
  | deep => simp at clean
  | operand notOperator _ ih => exact .operand notOperator (ih clean bound)
  | unary isOperator _ ih =>
      have plain := TokenKind.plain_of_mem_unaryOperators isOperator
      rw [nesting_cons plain.notOpening plain.notClosing] at bound
      exact .unary isOperator (ih clean bound)
  | single _ stops ih => exact .single (ih clean bound) stops
  | binary leftReads isOperator _ stops leftIh rightIh =>
      have plain := Precedence.plain_of_mem isOperator
      obtain ⟨leftClean, rightClean⟩ := List.append_eq_nil_iff.1 clean
      rw [nesting_append (leftReads.balanced leftClean),
        nesting_cons plain.notOpening plain.notClosing] at bound
      have leftBound := Nat.le_trans (Nat.le_max_left _ _) bound
      have rightBound := Nat.le_trans (Nat.le_max_right _ _) bound
      exact .binary (leftIh leftClean leftBound) isOperator (rightIh rightClean rightBound) stops

/-! ## Literals that are read -/

/-- In the middle of skipped tokens a group is being skipped. -/
theorem Skips.skipped_ne_zero
    {skipped : Nat} {tokens before after : List Token} {token next : Token}
    (skips : Skips skipped tokens next)
    (split : tokens = before ++ token :: after)
    (limit opened : Nat) :
    (Groups.behind limit ⟨opened, skipped⟩ before).skipped ≠ 0 := by
  induction skips generalizing before with
  | closed => simp at split
  | ending => simp at split
  | opening isOpening _ ih =>
      cases before with
      | nil => exact Nat.succ_ne_zero _
      | cons first before =>
          obtain ⟨rfl, later⟩ := List.cons.inj split
          simpa [Groups.behind, Groups.step, isOpening] using ih later
  | closing isClosing _ ih =>
      cases before with
      | nil => exact Nat.succ_ne_zero _
      | cons first before =>
          obtain ⟨rfl, later⟩ := List.cons.inj split
          simpa [Groups.behind, Groups.step, isClosing] using ih later
  | plain plain _ ih =>
      cases before with
      | nil => exact Nat.succ_ne_zero _
      | cons first before =>
          obtain ⟨rfl, later⟩ := List.cons.inj split
          simpa [Groups.behind, Groups.step_of_plain plain] using ih later

namespace Groups

variable {limit opened : Nat} {before after : List Token} {token : Token}

/-- How many literals in front of a place belong to no skipped group. -/
def literalsBefore (limit opened : Nat) (before : List Token) : Nat :=
  (literalTokens (kept limit ⟨opened, 0⟩ before)).length

theorem literalTokens_kept
    (isLiteral : token.kind ∈ TokenKind.literals)
    (outside : (behind limit ⟨opened, 0⟩ before).skipped = 0) :
    ∃ later,
      literalTokens (kept limit ⟨opened, 0⟩ (before ++ token :: after)) =
        literalTokens (kept limit ⟨opened, 0⟩ before) ++ token :: later := by
  have plain := TokenKind.plain_of_mem_literals isLiteral
  have there :
      behind limit ⟨opened, 0⟩ before = ⟨(behind limit ⟨opened, 0⟩ before).opened, 0⟩ :=
    Groups.ext rfl outside
  rw [kept_append, there, kept_cons_of_plain plain, literalTokens_append,
    literalTokens_cons_of_mem isLiteral]
  exact ⟨_, rfl⟩

theorem literalsBefore_cons_of_opening
    {first : Token}
    (isOpening : first.kind = .leftParen)
    (shallow : opened < limit) :
    literalsBefore limit opened (first :: before) = literalsBefore limit (opened + 1) before := by
  have notLiteral : first.kind ∉ TokenKind.literals := by
    rw [isOpening]
    decide
  rw [literalsBefore, kept_cons_of_opening isOpening shallow,
    literalTokens_cons_of_not_mem notLiteral]
  rfl

theorem literalsBefore_cons_of_plain
    {first : Token}
    (plain : first.kind.Plain)
    (notLiteral : first.kind ∉ TokenKind.literals) :
    literalsBefore limit opened (first :: before) = literalsBefore limit opened before := by
  rw [literalsBefore, kept_cons_of_plain plain, literalTokens_cons_of_not_mem notLiteral]
  rfl

end Groups

/-- A literal token that belongs to no skipped group is a literal of the tree. -/
theorem Reads.literals_getElem?
    {level : Level} {room : Nat} {before after : List Token} {token next : Token} {expr : Expr}
    {diagnostics : List Diagnostic}
    (reads : Reads level room (before ++ token :: after) next expr diagnostics)
    (isLiteral : token.kind ∈ TokenKind.literals)
    {limit opened : Nat}
    (within : opened + room = limit)
    (outside : (Groups.behind limit ⟨opened, 0⟩ before).skipped = 0) :
    expr.literals[Groups.literalsBefore limit opened before]? = some token.literalValue := by
  obtain ⟨later, split⟩ := Groups.literalTokens_kept isLiteral outside
  rw [reads.literals_eq within, split, List.map_append, Groups.literalsBefore,
    List.getElem?_append_right (Nat.le_of_eq (List.length_map _)), List.length_map, Nat.sub_self]
  rfl

/-- All literals of the left operand stand in front of those of the right one. -/
theorem Reads.literalsBefore_right
    {precedence : Precedence} {room : Nat} {lefts : List Token} {operator : Token} {left : Expr}
    {diagnostics : List Diagnostic}
    (reads : Reads (.chain precedence) room lefts operator left diagnostics)
    (isOperator : operator.kind ∈ precedence.operators)
    {limit opened : Nat}
    (within : opened + room = limit)
    (others : List Token) :
    Groups.behind limit ⟨opened, 0⟩ (lefts ++ operator :: others) =
        Groups.behind limit ⟨opened, 0⟩ others ∧
      Groups.literalsBefore limit opened (lefts ++ operator :: others) =
        left.literals.length + Groups.literalsBefore limit opened others := by
  have plain := Precedence.plain_of_mem isOperator
  have notLiteral := Precedence.not_mem_literals isOperator
  have closed := reads.behind_eq within (Or.inr ⟨precedence, isOperator⟩)
  refine ⟨?_, ?_⟩
  · rw [Groups.behind_append, closed, Groups.behind, Groups.step_of_plain plain]
  · rw [Groups.literalsBefore, Groups.kept_append, closed, literalTokens_append,
      List.length_append, reads.literals_eq within, List.length_map,
      ← Groups.literalsBefore_cons_of_plain plain notLiteral]
    rfl

section Substitution

variable {operand : List Token} {opening closing : Token} {inner : Expr} {free : Nat}

/-- The group is read in the place of the literal, and everything else as before. -/
theorem Reads.substituted
    {level : Level} {room : Nat} {tokens before after : List Token} {token next : Token}
    {expr : Expr} {diagnostics : List Diagnostic}
    (reads : Reads level room tokens next expr diagnostics)
    (split : tokens = before ++ token :: after)
    (isLiteral : token.kind ∈ TokenKind.literals)
    {limit opened : Nat}
    (within : opened + room = limit)
    (outside : (Groups.behind limit ⟨opened, 0⟩ before).skipped = 0)
    (isOpening : opening.kind = .leftParen)
    (readsInner : Reads .expression free operand closing inner [])
    (isClosing : closing.kind = .rightParen)
    (enough : (Groups.behind limit ⟨opened, 0⟩ before).opened + 1 + free = limit) :
    Reads level room (before ++ (opening :: operand ++ closing :: after)) next
      (expr.replaceLiteral (Groups.literalsBefore limit opened before) (.grouping inner))
      diagnostics := by
  have different {other : Token} (notLiteral : other.kind ∉ TokenKind.literals) :
      other ≠ token := by
    rintro rfl
    exact notLiteral isLiteral
  have parenthesis {other : Token}
      (isParenthesis : other.kind = .leftParen ∨ other.kind = .rightParen) :
      other ≠ token := by
    apply different
    rcases isParenthesis with kind | kind
    · rw [kind]
      decide
    · rw [kind]
      decide
  induction reads generalizing before after opened with
  | @literal room first next _ =>
      obtain ⟨rfl, rfl, rfl⟩ : before = [] ∧ first = token ∧ after = [] := by
        cases before <;> simp_all
      have room_eq : room = free + 1 := by
        simp only [Groups.behind] at enough
        omega
      rw [room_eq]
      exact .closed isOpening readsInner isClosing
  | missing => simp at split
  | @closed room first last next tokens tree diagnostics isFirst _ isLast ih =>
      obtain ⟨before, rfl, later⟩ := split_cons (parenthesis (Or.inl isFirst)) split
      obtain ⟨after, rfl, rfl⟩ := split_concat (parenthesis (Or.inr isLast)) later
      have shallow : opened < limit := by omega
      have within : opened + 1 + room = limit := by omega
      rw [Groups.behind_cons_of_opening isFirst shallow] at outside enough
      rw [Groups.literalsBefore_cons_of_opening isFirst shallow, Tree.replaceLiteral]
      simpa using Reads.closed isFirst (ih rfl within outside enough) isLast
  | @unclosed room first next tokens tree diagnostics isFirst _ stops notClosing ih =>
      obtain ⟨before, rfl, rfl⟩ := split_cons (parenthesis (Or.inl isFirst)) split
      have shallow : opened < limit := by omega
      have within : opened + 1 + room = limit := by omega
      rw [Groups.behind_cons_of_opening isFirst shallow] at outside enough
      rw [Groups.literalsBefore_cons_of_opening isFirst shallow]
      exact .unclosed isFirst (ih rfl within outside enough) stops notClosing
  | @deep first next tokens isFirst skips =>
      obtain ⟨before, rfl, later⟩ := split_cons (parenthesis (Or.inl isFirst)) split
      have full : ¬ opened < limit := by omega
      have inside := skips.skipped_ne_zero later limit opened
      simp [Groups.behind, Groups.step, isFirst, full, inside] at outside
  | @operand room next tokens expr diagnostics notOperator _ ih =>
      refine .operand ?_ (ih split within outside enough)
      cases before with
      | nil =>
          rw [List.nil_append, List.cons_append, List.headD_cons, isOpening]
          decide
      | cons first before =>
          rw [split] at notOperator
          exact notOperator
  | @unary room operator next tokens right diagnostics isOperator _ ih =>
      have notLiteral := TokenKind.not_mem_literals_of_mem_unaryOperators isOperator
      have plain := TokenKind.plain_of_mem_unaryOperators isOperator
      obtain ⟨before, rfl, rfl⟩ := split_cons (different notLiteral) split
      simp only [Groups.behind, Groups.step_of_plain plain] at outside enough
      rw [Groups.literalsBefore_cons_of_plain plain notLiteral]
      exact .unary isOperator (ih rfl within outside enough)
  | single _ stops ih => exact .single (ih split within outside enough) stops
  | @binary precedence room operator next lefts rights left right leftDiagnostics
      rightDiagnostics leftReads isOperator rightReads stops leftIh rightIh =>
      have notLiteral := Precedence.not_mem_literals isOperator
      rcases split_append_cons (different notLiteral) split with
        ⟨others, rfl, rfl⟩ | ⟨others, rfl, rfl⟩
      · obtain ⟨between, count⟩ := leftReads.literalsBefore_right isOperator within others
        rw [between] at outside enough
        have rightSide := rightIh rfl within outside enough
        rw [count, Tree.replaceLiteral, if_neg (by omega), Nat.add_sub_cancel_left,
          List.append_assoc]
        exact .binary leftReads isOperator rightSide stops
      · have found := leftReads.literals_getElem? isLiteral within outside
        obtain ⟨inFront, _⟩ := List.getElem?_eq_some_iff.1 found
        have leftSide := leftIh rfl within outside enough
        rw [Tree.replaceLiteral, if_pos inFront]
        simpa using Reads.binary leftSide isOperator rightReads stops

end Substitution

/-! ## Whole lists -/

/-- `LiteralAt list position index token` when the token at `index` is a literal that has been
taken in front of `position` and belongs to no skipped group. -/
structure LiteralAt (list : List Token) (position index : Nat) (token : Token) : Prop where
  atIndex : list[index]? = some token
  isTaken : index < position
  isLiteral : token.kind ∈ TokenKind.literals
  outside : (Groups.behind 64 ⟨0, 0⟩ (list.take index)).skipped = 0

/-- `ReadsAlone tokens expr` when the tokens, with one behind them that ends the input, are
accepted up to that token. -/
def ReadsAlone (tokens : List Token) (expr : Expr) : Prop :=
  ∃ last behind,
    last.kind = .endOfInput ∧
      Descent.parse (Descent.ofTokens (tokens ++ [last])) = .ok (.ok expr) behind ∧
      behind.rest = [last]

namespace ReadsAlone

open Descent

variable {tokens : List Token} {expr : Expr}

/-- Tokens that are read alone are read between parentheses as well, wherever they fit. -/
theorem reads
    (readsAlone : ReadsAlone tokens expr)
    {room : Nat}
    (bound : nesting tokens ≤ room)
    {closing : Token}
    (isClosing : closing.kind = .rightParen) :
    Reads .expression room tokens closing expr [] := by
  obtain ⟨last, behind, isEnd, accepted, stops⟩ := readsAlone
  have ended : Ended (tokens ++ [last]) := ⟨last, by simp, isEnd⟩
  obtain ⟨position, next, tree, diagnostics, parses⟩ := exists_parses ended
  rw [parses.parse_eq] at accepted
  injection accepted with answer moved
  obtain ⟨rfl, rfl⟩ := verdict_eq_ok_iff.1 answer
  rw [← moved, parses.drop_past] at stops
  have atLast : position = tokens.length := by
    have remaining := congrArg List.length stops
    have inside := (List.getElem?_eq_some_iff.1 parses.atPosition).1
    simp only [List.length_drop, List.length_append, List.length_singleton] at remaining inside
    omega
  have whole := parses.reads
  rw [atLast, List.take_left] at whole
  have nothing : ([] : List Token).length = unclosedGroups [] := rfl
  have closed := whole.supplied (by simp [Shallow]) nothing (by simp) (Or.inl isClosing)
  rw [List.append_nil] at closed
  exact closed.fits rfl bound

end ReadsAlone

namespace LiteralAt

variable {tokens later : List Token} {next token : Token} {index : Nat}

/-- A literal that is taken splits what is taken. -/
theorem exists_split
    (literalAt : LiteralAt (tokens ++ next :: later) tokens.length index token) :
    ∃ after,
      tokens = (tokens ++ next :: later).take index ++ token :: after ∧
        (tokens ++ next :: later).drop (index + 1) = after ++ next :: later := by
  obtain ⟨atIndex, isTaken, _, _⟩ := literalAt
  rw [List.getElem?_append_left isTaken] at atIndex
  obtain ⟨inside, rfl⟩ := List.getElem?_eq_some_iff.1 atIndex
  refine ⟨tokens.drop (index + 1), ?_, ?_⟩
  · rw [List.take_append_of_le_length (Nat.le_of_lt isTaken), List.getElem_cons_drop,
      List.take_append_drop]
  · rw [List.drop_append_of_le_length isTaken]

end LiteralAt

namespace Descent

/-- Where a fresh descent takes a literal while `opened` groups are open, a group around any
operand that is read alone can stand in its place, if no more than 64 groups are open at the same
time.  The tree then has the group in the place of that literal and is the same otherwise; the
diagnostics are the same, and so is everything behind what is taken. -/
theorem exists_parse_substituted
    {list : List Token}
    (ended : Ended list) :
    ∃ descent expr,
      parse (ofTokens list) = .ok (verdict expr descent.diagnostics) descent ∧
        ∀ {index : Nat} {token : Token},
          LiteralAt list descent.position index token →
          let before := list.take index
          let opened := (Groups.behind 64 ⟨0, 0⟩ before).opened
          let place := Groups.literalsBefore 64 0 before
          expr.literals[place]? = some token.literalValue ∧
            ∀ (operand : List Token) (opening closing : Token) (inner : Expr),
              ReadsAlone operand inner →
              opening.kind = .leftParen →
              closing.kind = .rightParen →
              opened + 1 + nesting operand ≤ 64 →
              ∃ behind,
                parse (ofTokens
                    (before ++ (opening :: operand ++ closing :: list.drop (index + 1)))) =
                    .ok
                      (verdict (expr.replaceLiteral place (.grouping inner)) descent.diagnostics)
                      behind ∧
                  behind.diagnostics = descent.diagnostics ∧
                  behind.rest = descent.rest := by
  obtain ⟨tokens, next, later, expr, diagnostics, rfl, _, reads, stops⟩ :=
    exists_reads .expression maxNesting ended
  have parses := reads.parses stops later
  refine ⟨(ofTokens _).past _ diagnostics, expr, parses.parse_eq, ?_⟩
  intro index token literalAt
  rw [parses.position_past] at literalAt
  obtain ⟨after, split, behindLiteral⟩ := literalAt.exists_split
  have within : 0 + maxNesting = 64 := rfl
  intro before opened place
  refine ⟨?_, ?_⟩
  · have splitReads := reads
    rw [split] at splitReads
    exact splitReads.literals_getElem? literalAt.isLiteral within literalAt.outside
  · intro operand opening closing inner readsAlone isOpening isClosing bound
    obtain ⟨free, enough⟩ := Nat.exists_eq_add_of_le (Nat.le_trans (Nat.le_add_right _ _) bound)
    have fits : nesting operand ≤ free := by omega
    have substituted :
        Reads .expression maxNesting (before ++ (opening :: operand ++ closing :: after)) next
          (expr.replaceLiteral place (.grouping inner)) diagnostics :=
      reads.substituted split literalAt.isLiteral within literalAt.outside isOpening
        (readsAlone.reads fits isClosing) isClosing enough.symm
    have newParses := substituted.parses stops later
    have sameList :
        before ++ (opening :: operand ++ closing :: (tokens ++ next :: later).drop (index + 1)) =
          before ++ (opening :: operand ++ closing :: after) ++ next :: later := by
      rw [behindLiteral]
      simp
    rw [sameList]
    refine ⟨_, newParses.parse_eq, rfl, ?_⟩
    rw [newParses.drop_past, parses.drop_past, List.drop_left, List.drop_left]

/-- The tokens of `(nil - true`, where a parenthesis is missing. -/
def unclosedDifference : List Token :=
  [.bare .leftParen, .bare .nilWord, .bare .minus, ⟨.trueWord, none, .bool true, 1⟩,
    .bare .endOfInput]

/-- In the place of the second operand the group `(nil *)` leaves the complaint as it is. -/
theorem substituted_unclosedDifference :
    Ended unclosedDifference ∧
      ReadsAlone [.bare .nilWord, .bare .star] (.binary (.literal .nil) (.bare .star) .empty) ∧
      ∃ behind,
        parse (ofTokens
            ([.leftParen, .nilWord, .minus, .leftParen, .nilWord, .star, .rightParen,
              .endOfInput].map Token.bare)) =
            .ok
              (.error (.rejected [⟨1, .unclosedGroup⟩]
                (.grouping
                  (.binary (.literal .nil) (.bare .minus)
                    (.grouping (.binary (.literal .nil) (.bare .star) .empty))))))
              behind ∧
          behind.rest = [.bare .endOfInput] := by
  have ended : Ended unclosedDifference := ⟨.bare .endOfInput, by decide, rfl⟩
  have readsAlone :
      ReadsAlone [.bare .nilWord, .bare .star]
        (.binary (.literal .nil) (.bare .star) .empty) :=
    ⟨.bare .endOfInput, _, rfl, rfl, rfl⟩
  obtain ⟨descent, expr, parses, substituted⟩ := exists_parse_substituted ended
  have run :
      parse (ofTokens unclosedDifference) =
        .ok
          (.error (.rejected [⟨1, .unclosedGroup⟩]
            (.grouping (.binary (.literal .nil) (.bare .minus) (.literal (.bool true))))))
          ⟨(unclosedDifference.take 4).reverse, [.bare .endOfInput], 0,
            [⟨1, .unclosedGroup⟩]⟩ := by
    decide +kernel
  rw [run] at parses
  injection parses with isAnswer isDescent
  subst isDescent
  have isTree := congrArg bestEffort? isAnswer
  rw [bestEffort?_verdict] at isTree
  obtain rfl := Option.some.inj isTree
  have literalAt :
      LiteralAt unclosedDifference 4 3 ⟨.trueWord, none, .bool true, 1⟩ :=
    ⟨rfl, by decide, by decide, by decide⟩
  obtain ⟨behind, accepted, _, stops⟩ :=
    (substituted literalAt).2 _ (.bare .leftParen) (.bare .rightParen) _ readsAlone rfl rfl
      (by decide)
  exact ⟨ended, readsAlone, behind, accepted, stops⟩

end Descent

end LoxSyntax
