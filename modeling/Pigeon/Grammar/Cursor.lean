import Pigeon.Token
import Pigeon.Decimal.Numeral

/-!
# Reading tokens

A cursor stands on one token of a program, remembers the token before it and knows those ahead.
A *reader* takes a cursor, and returns what it has read together with the cursor after it, or says
why nothing can be read.
-/

namespace Pigeon

/-- What the grammar asks for at a token. -/
inductive Expected where
  | functionName
  | openingParams
  | paramType
  | paramName
  | closingParams
  | variableName
  | initializer
  | endOfDeclaration
  | endOfCall
  | assignmentTo (name : String)
  | endOfAssignment
  | whileAfterBody
  | endOfDoWhile
  | counterName
  | counterStart
  | direction
  | endOfReturn
  | endOfBreak
  | endOfContinue
  | closingArgs
  | ternaryColon
  | closingParen
  deriving DecidableEq, Repr

/-- What is asked for, with the code of the message. -/
def Expected.text : Expected → String
  | functionName => "[PAR-0041] expected function name"
  | openingParams => "[PAR-0042] expected '(' after function name"
  | paramType => "[PAR-0043] expected parameter type"
  | paramName => "[PAR-0044] expected parameter name"
  | closingParams => "[PAR-0045] expected ')' after parameters"
  | variableName => "[PAR-0110] expected variable name"
  | initializer => "[PAR-0111] expected '=' in variable declaration"
  | endOfDeclaration => "[PAR-0112] expected ';' after variable declaration"
  | endOfCall => "[PAR-0113] expected ';' after function call"
  | assignmentTo name => s!"[PAR-0114] expected assignment operator or '(' after '{name}'"
  | endOfAssignment => "[PAR-0115] expected ';' after assignment"
  | whileAfterBody => "[PAR-0134] expected 'while' after do-while body"
  | endOfDoWhile => "[PAR-0135] expected ';' after do-while condition"
  | counterName => "[PAR-0141] expected loop counter name after 'for'"
  | counterStart => "[PAR-0142] expected '=' after loop counter"
  | direction => "[PAR-0143] expected 'to' or 'downto' in for loop"
  | endOfReturn => "[PAR-0151] expected ';' after return"
  | endOfBreak => "[PAR-0191] expected ';' after 'break'"
  | endOfContinue => "[PAR-0201] expected ';' after 'continue'"
  | closingArgs => "[PAR-0210] expected ')' after arguments"
  | ternaryColon => "[PAR-0220] expected ':' in conditional expression"
  | closingParen => "[PAR-0224] expected ')' after expression"

/-- Why the tokens are no program. -/
inductive ParseCause where
  | expected (what : Expected)
  | unclosedBlock
  | noStatement
  | blockAsStatement
  | nestedFunction
  | noExpression
  deriving DecidableEq, Repr

/-- A syntax error at a token. -/
structure ParseError where
  cause : ParseCause
  token : Token
  deriving DecidableEq, Repr

/-- The text of the error. -/
def ParseError.message (e : ParseError) : String :=
  match e.cause with
  | .expected what => s!"{what.text}, got {e.token.shown} instead"
  | .unclosedBlock => "[PAR-0091] expected '\x7d' after block"
  | .noStatement => s!"[PAR-0100] unexpected token at start of statement: {e.token.shown}"
  | .blockAsStatement =>
    "[PAR-0101] a block is only allowed as the body of a statement or function"
  | .nestedFunction => "[PAR-0102] function declarations are only allowed at top level"
  | .noExpression =>
    s!"[PAR-0225] unexpected token in expression: {e.token.kind.name}:'{e.token.text}'"

/-- Why the tokens cannot be read. -/
inductive ReadError where
  | grammar (e : ParseError)
  /-- The text of a number literal is no numeral. -/
  | numeral (e : NumeralError)
  /-- The bound on the depth of the tree was too small. -/
  | tooDeep
  deriving DecidableEq, Repr

/-- A place in a list of tokens. -/
structure Cursor where
  /-- The token before this place, or the first token at the beginning. -/
  last : Token
  here : Token
  ahead : List Token

namespace Cursor

/-- The beginning of a list of tokens. The empty list counts as an end of file. -/
def ofTokens : List Token → Cursor
  | [] => ⟨⟨.eof, "", .first⟩, ⟨.eof, "", .first⟩, []⟩
  | t :: ts => ⟨t, t, ts⟩

/-- One token further; the end of file is never passed. -/
def advance (c : Cursor) : Cursor :=
  if c.here.kind = .eof then c
  else
    match c.ahead with
    | [] => c
    | t :: ts => ⟨c.here, t, ts⟩

/-- The kind of the token after this one. -/
def nextKind (c : Cursor) : TokenKind :=
  (c.ahead.head?.getD c.here).kind

end Cursor

/-- Reads part of a program at a cursor. -/
abbrev Reader := StateT Cursor (Except ReadError)

namespace Reader

/-- The token under the cursor. -/
def here : Reader Token := do
  return (← get).here

/-- The token before the cursor. -/
def last : Reader Token := do
  return (← get).last

/-- The token under the cursor, which is passed. -/
def advance : Reader Token := do
  let c ← get
  set c.advance
  return c.here

/-- Fails at the token under the cursor. -/
def fail {α : Type} (cause : ParseCause) : Reader α := do
  throw (.grammar ⟨cause, ← here⟩)

/-- Passes a token of the given kind, or fails. -/
def expect (kind : TokenKind) (what : Expected) : Reader Token := do
  if (← here).kind = kind then advance else fail (.expected what)

/-- Passes a token of one of the given kinds, if the cursor stands on one. -/
def accept? (kinds : List TokenKind) : Reader (Option Token) := do
  if kinds.contains (← here).kind then return some (← advance) else return none

/-- The position of the token under the cursor. -/
def position : Reader Position := do
  return (← here).position

/-- The span from a position up to the end of the last token that was passed. -/
def spanFrom (start : Position) : Reader (Option Span) := do
  return some ⟨start, (← last).stop⟩

/-- The number that a literal stands for. -/
def numeral {α : Type} (x : Except NumeralError α) : Reader α :=
  match x with
  | .ok n => return n
  | .error e => throw (.numeral e)

end Reader

end Pigeon
