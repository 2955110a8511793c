import Pigeon.Source.Position
import Pigeon.Text.Quoted

/-!
# Tokens

The words and symbols of source text. The text of a token is its spelling, except that the text of
a string literal is its contents with the escapes decoded, and that of the end of file is empty.
-/

namespace Pigeon

/-- The kinds of tokens. -/
inductive TokenKind where
  | eof
  | ident | type | int | float | string
  | kwLet | kwConst | kwIf | kwElse | kwWhile | kwDo | kwFor | kwTo | kwDownto
  | kwBreak | kwContinue | kwReturn | kwTrue | kwFalse
  | lbrace | rbrace | lparen | rparen | comma | semi | colon | question
  | assign | plusAssign | minusAssign | starAssign | slashAssign | percentAssign
  | plus | minus | star | slash | percent
  | lt | gt | le | ge | eq | ne
  | and | or | bang
  deriving DecidableEq, Repr

namespace TokenKind

/-- The name of a kind of tokens. -/
def name : TokenKind → String
  | eof => "EOF"
  | ident => "IDENT" | type => "TYPE" | int => "INT" | float => "FLOAT" | string => "STRING"
  | kwLet => "LET" | kwConst => "CONST" | kwIf => "IF" | kwElse => "ELSE" | kwWhile => "WHILE"
  | kwDo => "DO" | kwFor => "FOR" | kwTo => "TO" | kwDownto => "DOWNTO"
  | kwBreak => "BREAK" | kwContinue => "CONTINUE" | kwReturn => "RETURN"
  | kwTrue => "TRUE" | kwFalse => "FALSE"
  | lbrace => "LBRACE" | rbrace => "RBRACE" | lparen => "LPAREN" | rparen => "RPAREN"
  | comma => "COMMA" | semi => "SEMI" | colon => "COLON" | question => "QUESTION"
  | assign => "EQ" | plusAssign => "PLUS_EQ" | minusAssign => "MINUS_EQ"
  | starAssign => "STAR_EQ" | slashAssign => "SLASH_EQ" | percentAssign => "MODULO_EQ"
  | plus => "PLUS" | minus => "MINUS" | star => "STAR" | slash => "SLASH" | percent => "MODULO"
  | lt => "LT" | gt => "GT" | le => "LE" | ge => "GE" | eq => "EQEQ" | ne => "NE"
  | and => "ANDAND" | or => "OROR" | bang => "BANG"

/-- All kinds of tokens. -/
def all : List TokenKind :=
  [eof, ident, type, int, float, string,
    kwLet, kwConst, kwIf, kwElse, kwWhile, kwDo, kwFor, kwTo, kwDownto,
    kwBreak, kwContinue, kwReturn, kwTrue, kwFalse,
    lbrace, rbrace, lparen, rparen, comma, semi, colon, question,
    assign, plusAssign, minusAssign, starAssign, slashAssign, percentAssign,
    plus, minus, star, slash, percent, lt, gt, le, ge, eq, ne, and, or, bang]

/-- The kind with a given name. -/
def ofName? (s : String) : Option TokenKind :=
  all.find? (·.name = s)

end TokenKind

/-- A token and the position of its first character. -/
structure Token where
  kind : TokenKind
  text : String
  position : Position
  deriving DecidableEq, Repr

namespace Token

/-- A token as it is shown in messages. -/
def shown (t : Token) : String :=
  if t.kind = .eof then "end-of-file" else Text.quoted t.text

/-- The position after a token that is written as its text. -/
def stop (t : Token) : Position :=
  { t.position with column := t.position.column + t.text.length }

/-- The reserved words and their kinds. -/
def keywords : List (String × TokenKind) :=
  [("let", .kwLet), ("const", .kwConst), ("if", .kwIf), ("else", .kwElse), ("while", .kwWhile),
    ("do", .kwDo), ("for", .kwFor), ("to", .kwTo), ("downto", .kwDownto), ("break", .kwBreak),
    ("continue", .kwContinue), ("return", .kwReturn), ("true", .kwTrue), ("false", .kwFalse),
    ("int", .type), ("float", .type), ("bool", .type), ("string", .type), ("void", .type)]

/-- A word that cannot be a name. -/
def isKeyword (word : String) : Bool :=
  keywords.any (·.1 = word)

/-- The kind of a word. -/
def wordKind (word : String) : TokenKind :=
  (keywords.lookup word).getD .ident

/-- The symbols and their kinds; a longer symbol stands before its beginnings. -/
def symbols : List (List Char × TokenKind) :=
  [(['+', '='], .plusAssign), (['-', '='], .minusAssign), (['*', '='], .starAssign),
    (['/', '='], .slashAssign), (['%', '='], .percentAssign),
    (['=', '='], .eq), (['!', '='], .ne), (['<', '='], .le), (['>', '='], .ge),
    (['&', '&'], .and), (['|', '|'], .or),
    (['('], .lparen), ([')'], .rparen), (['{'], .lbrace), (['}'], .rbrace),
    ([','], .comma), ([';'], .semi), ([':'], .colon), (['?'], .question),
    (['+'], .plus), (['-'], .minus), (['*'], .star), (['/'], .slash), (['%'], .percent),
    (['='], .assign), (['!'], .bang), (['<'], .lt), (['>'], .gt)]

end Token

end Pigeon
