import LoxSyntax.Proofs.Descent.Run

/-!
# One token of lookahead

A descent looks at no token behind the one in front of which it stops.  Every list with the same
tokens up to there, that one included, is parsed in the same way (`Parses.congr`): it may go on
with anything, and need not hold a token that ends the input.
-/

namespace LoxSyntax

namespace Parses

open Descent

variable {list other : List Token} {position : Nat} {next : Token} {expr : Expr}
  {diagnostics : List Diagnostic}

theorem take_congr
    (same : ∀ index ≤ position, other[index]? = list[index]?) :
    other.take position = list.take position := by
  apply List.ext_getElem?
  intro index
  by_cases inside : index < position
  · rw [List.getElem?_take_of_lt inside, List.getElem?_take_of_lt inside]
    exact same index (Nat.le_of_lt inside)
  · rw [List.getElem?_take_eq_none (Nat.le_of_not_lt inside),
      List.getElem?_take_eq_none (Nat.le_of_not_lt inside)]

theorem congr
    (parses : Parses list position next expr diagnostics)
    (same : ∀ index ≤ position, other[index]? = list[index]?) :
    Parses other position next expr diagnostics := by
  refine ⟨?_, ?_, parses.stops⟩
  · rw [same position (Nat.le_refl position)]
    exact parses.atPosition
  · rw [take_congr same]
    exact parses.reads

/-- The descents on both lists differ in the tokens in front of them only. -/
theorem parse_congr
    (parses : Parses list position next expr diagnostics)
    (same : ∀ index ≤ position, other[index]? = list[index]?) :
    parse (ofTokens other) =
      .ok (verdict expr diagnostics)
        { (ofTokens list).past (list.take position) diagnostics with
          rest := other.drop position } := by
  have parsesOther := parses.congr same
  rw [parsesOther.parse_eq, ← parsesOther.drop_past, take_congr same]
  rfl

end Parses

open Descent in
/-- A fresh descent stops in front of a token that is no operator between operands.  Any other
list with the same tokens up to that one, and whatever behind it, gives the same answer: the
descent has taken the same tokens, with the same diagnostics. -/
theorem Descent.exists_parse_unseen
    {list : List Token} (ended : Ended list) :
    ∃ answer descent next,
      parse (ofTokens list) = .ok answer descent ∧
        list[descent.position]? = some next ∧
        next.kind ∉ TokenKind.equalityOperators ∧
        next.kind ∉ TokenKind.comparisonOperators ∧
        next.kind ∉ TokenKind.termOperators ∧
        next.kind ∉ TokenKind.factorOperators ∧
        ∀ other : List Token,
          (∀ index ≤ descent.position, other[index]? = list[index]?) →
            parse (ofTokens other) =
              .ok answer { descent with rest := other.drop descent.position } := by
  obtain ⟨position, next, expr, diagnostics, parses⟩ := exists_parses ended
  have noOperator := parses.reads.not_mem_operators parses.stops
  refine ⟨_, _, next, parses.parse_eq, ?_⟩
  rw [parses.position_past]
  refine ⟨parses.atPosition, noOperator .equality, noOperator .comparison, noOperator .term,
    noOperator .factor, ?_⟩
  intro other same
  exact parses.parse_congr same

/-- The tokens of `(nil - , nil`, where an operand and a parenthesis are missing. -/
def brokenOperand : List Token :=
  [.leftParen, .nilWord, .minus, .comma, .nilWord, .endOfInput].map Token.bare

open Descent in
/-- Behind the comma there may be operators instead, and no end. -/
theorem unseen_brokenOperand :
    Ended brokenOperand ∧
      ∃ behind,
        parse (ofTokens
            ([.leftParen, .nilWord, .minus, .comma, .star, .leftParen].map Token.bare)) =
            .ok
              (.error (.rejected [⟨1, .unclosedGroup⟩]
                (.grouping (.binary (.literal .nil) (.bare .minus) .empty))))
              behind ∧
          behind.rest = [.comma, .star, .leftParen].map Token.bare := by
  have ended : Ended brokenOperand := ⟨.bare .endOfInput, by decide, rfl⟩
  obtain ⟨answer, descent, next, parses, _, _, _, _, _, unseen⟩ := exists_parse_unseen ended
  have run :
      parse (ofTokens brokenOperand) =
        .ok
          (.error (.rejected [⟨1, .unclosedGroup⟩]
            (.grouping (.binary (.literal .nil) (.bare .minus) .empty))))
          ⟨(brokenOperand.take 3).reverse, brokenOperand.drop 3, 0, [⟨1, .unclosedGroup⟩]⟩ := by
    decide +kernel
  rw [run] at parses
  injection parses with isAnswer isDescent
  subst isAnswer isDescent
  refine ⟨ended, _, unseen _ ?_, rfl⟩
  decide

end LoxSyntax
