import LoxSyntax.Token.Kind
import LoxSyntax.Value

/-!
# Tokens

A token has a kind, the text it was read from, a value and the number of the line it ends on.
The token at the end of the input has no text.  Tokens are listed one per line.
-/

namespace LoxSyntax

structure Token where
  kind : TokenKind
  lexeme : Option String
  value : Value
  line : Int
deriving DecidableEq

namespace Token

/-- Whether two tokens are equal, with their values compared by `Value.agrees`. -/
def agrees (left right : Token) : Bool :=
  left.kind = right.kind && left.lexeme = right.lexeme && left.value.agrees right.value &&
    left.line = right.line

def listsAgree : List Token → List Token → Bool
  | [], [] => true
  | left :: lefts, right :: rights => left.agrees right && listsAgree lefts rights
  | _, _ => false

/-- A token shown unambiguously. -/
def inspected (token : Token) : String :=
  "Token(" ++ token.kind.name ++ ", " ++ (token.lexeme.map Text.quoted).getD "None" ++ ", " ++
    token.value.inspected ++ ", line " ++ Text.decimalText token.line ++ ")"

/-- A token as a record: line and kind, then the text if there is one, then the value unless it
is nil. -/
def listed (token : Token) : String :=
  Text.decimalText token.line ++ ": " ++ token.kind.name ++
    (match token.lexeme with
      | some lexeme => " " ++ lexeme
      | none => "") ++
    (match token.value with
      | .nil => ""
      | value => " -> " ++ value.written)

/-- The records of all tokens, with a line feed between them. -/
def listing (tokens : List Token) : String :=
  "\n".intercalate (tokens.map listed)

end Token

end LoxSyntax
