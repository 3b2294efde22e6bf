import LoxSyntax.Proofs.Messages
import LoxSyntax.Proofs.Numerals

/-!
# Payloads

The value of a token is settled by its kind and its characters (`TokenKind.payload`): what stands
between the quotes of a string, the number nearest to a numeral, a truth value, or the characters
of a word themselves.

A string lacks its closing quote only where no quote follows in the source text, and then it is
the last token (`Scan.Over.quotes`).  A number lacks its value only if one of its digits is not a
decimal one; the scan records these numbers, and nothing else (`Token.payloads_ofSource`).
-/

namespace LoxSyntax

/-- The value of a token of some kind, given its characters. -/
def TokenKind.payload (lexeme : List Char) : TokenKind → Value
  | string => .string (String.ofList ((lexeme.drop 1).takeWhile (· ≠ '"')))
  | number =>
      match Binary64.ofText? lexeme with
      | some value => .number value
      | none => .nil
  | trueWord => .bool true
  | falseWord => .bool false
  | identifier | andWord | classWord | elseWord | funWord | forWord | ifWord | nilWord | orWord
  | printWord | returnWord | superWord | thisWord | varWord | whileWord =>
      .string (String.ofList lexeme)
  | leftParen | rightParen | leftBrace | rightBrace | comma | dot | minus | plus | semicolon
  | slash | star | bang | bangEqual | equal | equalEqual | greater | greaterEqual | less
  | lessEqual | endOfInput =>
      .nil

namespace TokenKind

theorem payload_of_mark
    {character : Char} {kind : TokenKind} (isMark : (character, kind) ∈ marks)
    (lexeme : List Char) :
    kind.payload lexeme = .nil := by
  have each : ∀ entry ∈ marks, entry.2.payload lexeme = .nil := by
    simp [marks, payload]
  exact each _ isMark

theorem payload_of_pair
    {character : Char} {double single : TokenKind} (isPair : (character, double, single) ∈ pairs)
    (lexeme : List Char) :
    double.payload lexeme = .nil ∧ single.payload lexeme = .nil := by
  have each :
      ∀ entry ∈ pairs, entry.2.1.payload lexeme = .nil ∧ entry.2.2.payload lexeme = .nil := by
    simp [pairs, payload]
  exact each _ isPair

theorem payload_ofWord (lexeme : List Char) :
    (ofWord (String.ofList lexeme)).payload lexeme =
      Scan.wordValue (ofWord (String.ofList lexeme)) (String.ofList lexeme) := by
  have each :
      ∀ entry ∈ keywords,
        entry.2.payload lexeme = Scan.wordValue entry.2 (String.ofList lexeme) := by
    simp [keywords, payload, Scan.wordValue]
  rcases ofWord_eq_or_mem (String.ofList lexeme) with isIdentifier | isKeyword
  · rw [isIdentifier]
    rfl
  · exact each _ isKeyword

end TokenKind

theorem Lexeme.payload_eq
    {kind : TokenKind} {text : List Char} (isLexeme : Lexeme kind text) :
    (Token.ofLexeme 1 text).value = kind.payload text := by
  cases isLexeme with
  | mark isMark =>
      rw [Token.value_ofLexeme (.mark _) isMark, TokenKind.payload_of_mark isMark]
      rfl
  | single isPair =>
      rw [Token.value_ofLexeme (.pair _ _) isPair, (TokenKind.payload_of_pair isPair _).2]
      rfl
  | double isPair =>
      rw [Token.value_ofLexeme (.pair _ _) isPair, (TokenKind.payload_of_pair isPair _).1]
      rfl
  | slash =>
      rw [Token.value_ofLexeme .slash rfl]
      rfl
  | unclosedString | closedString =>
      rw [Token.value_ofLexeme .quote rfl]
      rfl
  | whole isDigit | fraction isDigit =>
      rw [Token.value_ofLexeme .digit isDigit]
      rfl
  | word isLetter _ named =>
      rw [Token.value_ofLexeme .letter isLetter, TokenKind.eq_ofWord_iff.2 named,
        TokenKind.payload_ofWord]
      rfl

/-! ## Tokens at their place -/

namespace Scan

theorem value_next_of_ends {scan : Scan} (ends : scan.next.1.kind = .endOfInput) :
    scan.next.1.value = .nil := by
  cases behind : scan.rest.drop (Layout.leading scan.rest).length with
  | nil => rw [next_of_nil behind]
  | cons character rest =>
      rw [next_eq behind, ofChar_of_next_ends behind ends]
      rfl

/-- The tokens of a scan are read one after the other. -/
theorem exists_next_of_split
    {scan : Scan} {before later : List Token} {token : Token}
    (split : scan.tokens.1 = before ++ token :: later) :
    let reached := scan.after (List.replicate before.length .next)
    token = reached.next.1 ∧
      (token.kind = .endOfInput → later = []) ∧
      (token.kind ≠ .endOfInput → later = reached.next.2.tokens.1) := by
  induction before generalizing scan with
  | nil =>
      intro reached
      by_cases ends : scan.next.1.kind = .endOfInput
      · rw [tokens_of_ends ends] at split
        obtain ⟨rfl, rfl⟩ := List.cons.inj split
        exact ⟨rfl, fun _ => rfl, fun goesOn => absurd ends goesOn⟩
      · rw [tokens_of_ne ends] at split
        obtain ⟨rfl, rfl⟩ := List.cons.inj split
        exact ⟨rfl, fun isEnd => absurd isEnd ends, fun _ => rfl⟩
  | cons first before ih =>
      by_cases ends : scan.next.1.kind = .endOfInput
      · rw [tokens_of_ends ends] at split
        simp at split
      · rw [tokens_of_ne ends] at split
        exact ih (List.cons.inj split).2

/-- `Quotes text mark token later` when the token is a string whose opening quote stands at
`mark`, with `later` tokens behind it. -/
structure Quotes (text : List Char) (mark : Nat) (token : Token) (later : List Token)
    (payload : List Char) : Prop where
  value_eq : token.value = .string (String.ofList payload)
  noQuote : '"' ∉ payload
  stands : token.spelling <+: text.drop mark
  closed : '"' ∈ text.drop (mark + 1) → token.spelling = '"' :: (payload ++ ['"'])
  unclosed : '"' ∉ text.drop (mark + 1) →
    token.spelling = '"' :: payload ∧ ∃ last, later = [last] ∧ last.kind = .endOfInput

/-- Only a quote opens a string. -/
theorem eq_quote_of_kind
    {character : Char} {text : List Char}
    (isString : (Opening.ofChar character).kind text = .string) :
    Opening.ofChar character = .quote ∧ character = '"' := by
  have admits := Opening.admits_ofChar character
  revert isString admits
  cases Opening.ofChar character with
  | mark kind =>
      intro isString isMark
      have each : ∀ entry ∈ TokenKind.marks, entry.2 ≠ .string := by decide
      exact absurd isString (each _ isMark)
  | pair double single =>
      intro isString isPair
      have each : ∀ entry ∈ TokenKind.pairs, entry.2.1 ≠ .string ∧ entry.2.2 ≠ .string := by
        decide
      obtain ⟨notDouble, notSingle⟩ := each _ isPair
      rw [Opening.kind] at isString
      split at isString
      · exact absurd isString notSingle
      · exact absurd isString notDouble
  | quote =>
      intro _ isQuote
      exact ⟨rfl, isQuote⟩
  | letter =>
      intro isString _
      have each : ∀ entry ∈ TokenKind.keywords, entry.2 ≠ .string := by decide
      rw [Opening.kind] at isString
      rcases TokenKind.ofWord_eq_or_mem (String.ofList text) with isIdentifier | isKeyword
      · rw [isIdentifier] at isString
        contradiction
      · exact absurd isString (each _ isKeyword)
  | slash | digit | unknown =>
      intro isString _
      contradiction

/-- A string that is read has its closing quote if any quote follows. -/
theorem Over.quotes
    {text : List Char} {scan : Scan} (isOver : Over text scan)
    (isString : scan.next.1.kind = .string) :
    ∃ payload, Quotes text scan.next.2.mark scan.next.1 scan.next.2.tokens.1 payload := by
  have goesOn : scan.next.1.kind ≠ .endOfInput := by
    rw [isString]
    decide
  obtain ⟨character, rest, behind, _⟩ := exists_cons_of_next goesOn
  obtain ⟨isKind, lexeme, _⟩ := next_of_cons behind
  rw [isKind] at isString
  obtain ⟨opens, rfl⟩ := eq_quote_of_kind isString
  obtain ⟨ahead, _, _, _⟩ := isOver.slice_of_next behind
  have further : text.drop (scan.next.2.mark + 1) = rest := by
    rw [← List.drop_drop, ahead, List.drop_one, List.tail_cons]
  have spelling : scan.next.1.spelling = '"' :: Opening.quote.tail rest := by
    rw [Token.spelling, lexeme, opens, Option.getD_some, String.toList_ofList]
  have value :
      scan.next.1.value =
        .string (String.ofList (Opening.quote.tail rest |>.takeWhile (· ≠ '"'))) := by
    rw [next_eq behind, opens]
    rfl
  have stands : scan.next.1.spelling <+: text.drop scan.next.2.mark := by
    rw [spelling, ahead]
    exact (List.prefix_cons_inj _).2 (Opening.tail_isPrefix _ rest)
  obtain ⟨body, noQuote, rfl | ⟨later, rfl⟩⟩ := Opening.exists_body rest
  · refine ⟨rest, ?_, noQuote, stands, ?_, ?_⟩
    · rw [value, Opening.tail_quote_of_not_mem noQuote,
        List.takeWhile_eq_self_iff.2 (Opening.ne_quote_of_not_mem noQuote)]
    · rw [further]
      intro member
      exact absurd member noQuote
    · intro _
      rw [spelling, Opening.tail_quote_of_not_mem noQuote]
      have ended : scan.next.2.rest = [] := by
        rw [rest_next_of_cons behind, opens, Opening.tail_quote_of_not_mem noQuote,
          List.drop_length]
      obtain ⟨last, alone, isEnd, _⟩ := tokens_of_rest_eq_nil ended
      exact ⟨rfl, last, alone, isEnd⟩
  · refine ⟨body, ?_, noQuote, stands, ?_, ?_⟩
    · rw [value, Opening.tail_quote_append noQuote, Opening.takeWhile_body noQuote]
    · intro _
      rw [spelling, Opening.tail_quote_append noQuote]
    · rw [further]
      intro none
      exact absurd (by simp) none

end Scan

/-! ## The tokens of a source text -/

namespace Token

theorem flatMap_complaints (tokens : List Token) :
    tokens.flatMap complaints =
      (tokens.filter fun token => token.kind = .number ∧ token.value = .nil).map fun token =>
        ⟨token.line, .invalidNumber (String.ofList token.spelling)⟩ := by
  induction tokens with
  | nil => rfl
  | cons token tokens ih =>
      rw [List.flatMap_cons, ih, complaints]
      by_cases isInvalid : token.kind = .number ∧ token.value = .nil
      · rw [if_pos isInvalid, List.filter_cons_of_pos (by simpa using isInvalid)]
        simp [spelling]
      · rw [if_neg isInvalid, List.filter_cons_of_neg (by simpa using isInvalid)]
        rfl

/-- The value of each token of a source text is settled by its kind and its characters. -/
theorem value_eq_payload
    {source : String} {token : Token} (member : token ∈ ofSource source) :
    token.value = token.kind.payload token.spelling := by
  by_cases ends : token.kind = .endOfInput
  · obtain ⟨before, later, split⟩ := List.append_of_mem member
    obtain ⟨isNext, _⟩ := Scan.exists_next_of_split split
    rw [isNext] at ends ⊢
    rw [Scan.value_next_of_ends ends, ends]
    rfl
  · have scanned := scanned_of_mem_ofSource member ends
    have value := congrArg Token.value scanned.eq_ofLexeme
    rw [scanned.isLexeme.payload_eq] at value
    exact value

theorem value_eq_nil_iff_of_number
    {source : String} {token : Token} (member : token ∈ ofSource source)
    (isNumber : token.kind = .number) :
    token.value = .nil ↔
      ∃ digit ∈ token.spelling, Text.isDigit digit ∧ ¬ Text.isDecimalDigit digit := by
  have goesOn : token.kind ≠ .endOfInput := by
    rw [isNumber]
    decide
  have isLexeme := (scanned_of_mem_ofSource member goesOn).isLexeme
  rw [isNumber] at isLexeme
  rw [← isLexeme.ofText?_eq_none_iff, value_eq_payload member, isNumber, TokenKind.payload]
  cases Binary64.ofText? token.spelling with
  | none => exact iff_of_true rfl rfl
  | some value => exact iff_of_false nofun nofun

theorem message_invalidNumber (line : Int) (lexeme : String) :
    Diagnostic.message ⟨line, .invalidNumber lexeme⟩ =
      "line " ++ Text.decimalText line ++ ": invalid number literal '" ++ lexeme ++ "'" := by
  have joined :
      ": invalid number literal '" = ": " ++ "invalid number literal '" := by
    decide
  rw [joined, ← String.append_assoc, String.append_assoc, String.append_assoc]
  rfl

/-- The values of the tokens of a source text are settled by their kinds and characters.  The
value of a string has no quote in it and stands between two of them, or behind one if no other
follows, and then only the end of the input is behind the string.  The scan records a complaint
about each number without a value, in their order, and nothing else.  Those are the numbers with a
digit that is not a decimal one. -/
theorem payloads_ofSource (source : String) :
    let tokens := ofSource source
    (∀ token ∈ tokens, token.value = token.kind.payload token.spelling) ∧
      (∀ (before : List Token) (token : Token) (later : List Token),
        tokens = before ++ token :: later →
        token.kind = .string →
        let reached := (Scan.ofText source).after (List.replicate (before.length + 1) .next)
        ∃ payload, Scan.Quotes source.toList reached.mark token later payload) ∧
      (Scan.ofText source).tokens.2.diagnostics.map Diagnostic.message =
        (tokens.filter fun token => token.kind = .number ∧ token.value = .nil).map
          (fun token =>
            "line " ++ Text.decimalText token.line ++ ": invalid number literal '" ++
              String.ofList token.spelling ++ "'") ∧
      ∀ token ∈ tokens, token.kind = .number →
        (token.value = .nil ↔
          ∃ digit ∈ token.spelling, Text.isDigit digit ∧ ¬ Text.isDecimalDigit digit) := by
  intro tokens
  refine ⟨fun token => value_eq_payload, ?_, ?_, fun token => value_eq_nil_iff_of_number⟩
  · intro before token later split isString reached
    have goesOn : token.kind ≠ .endOfInput := by
      rw [isString]
      decide
    obtain ⟨isNext, _, laterEq⟩ := Scan.exists_next_of_split split
    have isReached :
        reached = ((Scan.ofText source).after (List.replicate before.length .next)).next.2 := by
      simp only [reached, List.replicate_succ', Scan.after, List.foldl_append]
      rfl
    rw [isReached, laterEq goesOn, isNext]
    rw [isNext] at isString
    exact ((Scan.Over.ofText source).after _).quotes isString
  · rw [diagnostics_ofSource, flatMap_complaints, List.map_map]
    apply List.map_congr_left
    intro token _
    exact message_invalidNumber token.line (String.ofList token.spelling)

/-- The tokens of `1² "a`: a number that is no numeral, and a string without its closing quote. -/
def unclosedQuote : List Token :=
  [⟨.number, some "1²", .nil, 1⟩, ⟨.string, some "\"a", .string "a", 1⟩,
    ⟨.endOfInput, none, .nil, 1⟩]

/-- The opening quote stands behind three characters, and no quote follows. -/
theorem payloads_unclosedQuote :
    ofSource "1² \"a" = unclosedQuote ∧
      (∃ payload,
        Scan.Quotes "1² \"a".toList 3 ⟨.string, some "\"a", .string "a", 1⟩
          [⟨.endOfInput, none, .nil, 1⟩] payload) ∧
      ∃ digit ∈ ['1', '²'], Text.isDigit digit ∧ ¬ Text.isDecimalDigit digit := by
  have scanned : ofSource "1² \"a" = unclosedQuote := by decide +kernel
  obtain ⟨_, quotes, _, numbers⟩ := payloads_ofSource "1² \"a"
  rw [scanned] at quotes numbers
  have mark :
      ((Scan.ofText "1² \"a").after (List.replicate 2 .next)).mark = 3 := by
    decide +kernel
  have quoted := quotes [⟨.number, some "1²", .nil, 1⟩] _ _ rfl rfl
  simp only [List.length_singleton, Nat.reduceAdd, mark] at quoted
  refine ⟨scanned, quoted, ?_⟩
  exact (numbers ⟨.number, some "1²", .nil, 1⟩ (by decide) rfl).1 rfl

end Token

end LoxSyntax
