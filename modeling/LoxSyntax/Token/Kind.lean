/-!
# Kinds of tokens

The kinds in the order in which they are numbered, their names, the spellings of the words and
marks, and the operators of each level of precedence.
-/

namespace LoxSyntax

inductive TokenKind where
  | leftParen | rightParen | leftBrace | rightBrace | comma | dot | minus | plus | semicolon
  | slash | star
  | bang | bangEqual | equal | equalEqual | greater | greaterEqual | less | lessEqual
  | identifier | string | number
  | andWord | classWord | elseWord | funWord | forWord | ifWord | nilWord | orWord | printWord
  | returnWord | superWord | thisWord | trueWord | falseWord | varWord | whileWord
  | endOfInput
deriving DecidableEq, Repr

namespace TokenKind

/-- All kinds in the order of their numbers, which start from one. -/
def all : List TokenKind :=
  [.leftParen, .rightParen, .leftBrace, .rightBrace, .comma, .dot, .minus, .plus, .semicolon,
    .slash, .star, .bang, .bangEqual, .equal, .equalEqual, .greater, .greaterEqual, .less,
    .lessEqual, .identifier, .string, .number, .andWord, .classWord, .elseWord, .funWord,
    .forWord, .ifWord, .nilWord, .orWord, .printWord, .returnWord, .superWord, .thisWord,
    .trueWord, .falseWord, .varWord, .whileWord, .endOfInput]

def name : TokenKind → String
  | leftParen => "LEFT_PAREN"
  | rightParen => "RIGHT_PAREN"
  | leftBrace => "LEFT_BRACE"
  | rightBrace => "RIGHT_BRACE"
  | comma => "COMMA"
  | dot => "DOT"
  | minus => "MINUS"
  | plus => "PLUS"
  | semicolon => "SEMICOLON"
  | slash => "SLASH"
  | star => "STAR"
  | bang => "BANG"
  | bangEqual => "BANG_EQUAL"
  | equal => "EQUAL"
  | equalEqual => "EQUAL_EQUAL"
  | greater => "GREATER"
  | greaterEqual => "GREATER_EQUAL"
  | less => "LESS"
  | lessEqual => "LESS_EQUAL"
  | identifier => "IDENTIFIER"
  | string => "STRING"
  | number => "NUMBER"
  | andWord => "AND"
  | classWord => "CLASS"
  | elseWord => "ELSE"
  | funWord => "FUN"
  | forWord => "FOR"
  | ifWord => "IF"
  | nilWord => "NIL"
  | orWord => "OR"
  | printWord => "PRINT"
  | returnWord => "RETURN"
  | superWord => "SUPER"
  | thisWord => "THIS"
  | trueWord => "TRUE"
  | falseWord => "FALSE"
  | varWord => "VAR"
  | whileWord => "WHILE"
  | endOfInput => "EOF"

def ofName? (name : String) : Option TokenKind :=
  all.find? fun kind => kind.name = name

def keywords : List (String × TokenKind) :=
  [("and", .andWord), ("class", .classWord), ("else", .elseWord), ("fun", .funWord),
    ("for", .forWord), ("if", .ifWord), ("nil", .nilWord), ("or", .orWord),
    ("print", .printWord), ("return", .returnWord), ("super", .superWord), ("this", .thisWord),
    ("true", .trueWord), ("false", .falseWord), ("var", .varWord), ("while", .whileWord)]

/-- The kind of a word: a reserved one has its own kind and any other is an identifier. -/
def ofWord (word : String) : TokenKind :=
  (keywords.lookup word).getD .identifier

/-- The marks that are always a token of one character. -/
def marks : List (Char × TokenKind) :=
  [('(', .leftParen), (')', .rightParen), ('{', .leftBrace), ('}', .rightBrace),
    (',', .comma), ('.', .dot), ('-', .minus), ('+', .plus), (';', .semicolon), ('*', .star)]

/-- The marks that an equals sign may follow, with the kind of the pair and the kind of the
mark alone. -/
def pairs : List (Char × TokenKind × TokenKind) :=
  [('!', .bangEqual, .bang), ('=', .equalEqual, .equal), ('<', .lessEqual, .less),
    ('>', .greaterEqual, .greater)]

def equalityOperators : List TokenKind := [.equalEqual, .bangEqual]

/-- The operators that compare two operands in size. -/
def comparisonOperators : List TokenKind := [.greater, .greaterEqual, .less, .lessEqual]

/-- The operators that join the terms of a sum. -/
def termOperators : List TokenKind := [.minus, .plus]

/-- The operators that join the factors of a product. -/
def factorOperators : List TokenKind := [.slash, .star]

/-- The operators that stand before their operand. -/
def unaryOperators : List TokenKind := [.bang, .minus]

/-- The kinds that are an operand by themselves. -/
def literals : List TokenKind := [.trueWord, .falseWord, .nilWord, .string, .number]

end TokenKind

end LoxSyntax
