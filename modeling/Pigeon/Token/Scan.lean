import Pigeon.Token
import Pigeon.Decimal.Numeral

/-!
# Scanning source text

Source text is a sequence of lexemes with trivia between them: blanks, line comments and block
comments. Each scanning function takes the position and the characters from there on, and returns
the position and the characters after the part that it has read.

The null character never belongs to a lexeme. It ends a line comment and leaves a string literal
without its end.
-/

namespace Pigeon

/-- What is wrong with source text at a position. -/
inductive LexCause where
  | unterminatedString
  | unexpectedChar (c : Char)
  | singleAmpersand
  | singleBar
  | unknownEscape (c : Char)
  | intTooLarge (text : String)
  | charAfterNumber (c : Char)
  | missingFraction
  | unterminatedComment
  deriving DecidableEq, Repr

/-- A lexical error. -/
structure LexError where
  cause : LexCause
  position : Position
  deriving DecidableEq, Repr

/-- The text of the error. -/
def LexError.message (e : LexError) : String :=
  match e.cause with
  | .unterminatedString => "[LEX-0010] unterminated string literal"
  | .unexpectedChar c =>
    let shown := Text.quoted (String.singleton c)
    s!"[LEX-0040] unexpected character {shown} at {e.position.line}:{e.position.column}"
  | .singleAmpersand => "[LEX-0041] unsupported operator '&', did you mean '&&'?"
  | .singleBar => "[LEX-0042] unsupported operator '|', did you mean '||'?"
  | .unknownEscape c => "[LEX-0059] unknown escape sequence \\" ++ String.singleton c
  | .intTooLarge text => s!"[LEX-0060] integer literal '{text}' exceeds 64-bit signed range"
  | .charAfterNumber c => s!"[LEX-0061] invalid character '{c}' after number literal"
  | .missingFraction => "[LEX-0062] expected digit after decimal point"
  | .unterminatedComment => "[LEX-0070] unterminated block comment"

/-- Why source text cannot be split into tokens. -/
inductive ScanError where
  | lexical (e : LexError)
  /-- A digit of a number literal has no value. -/
  | numeral (e : NumeralError)
  deriving DecidableEq, Repr

namespace Token

/-- The largest integer literal. -/
def maxInt : Int := 0x7fffffffffffffff

/-- The null character. -/
def nul : Char := '\x00'

/-! ### Trivia -/

/-- Where a scan through trivia stands. -/
inductive TriviaMode where
  | between
  | lineComment
  | blockComment
  deriving DecidableEq, Repr

/-- A blank between tokens. -/
def isSpace (c : Char) : Bool :=
  c = ' ' || c = '\t' || c = '\r' || c = '\n'

/-- Passes over blanks and comments. -/
def skipTrivia (p : Position) : TriviaMode → List Char → Except LexError (Position × List Char)
  | .between, '/' :: '/' :: cs => skipTrivia ((p.next '/').next '/') .lineComment cs
  | .between, '/' :: '*' :: cs => skipTrivia ((p.next '/').next '*') .blockComment cs
  | .between, c :: cs =>
    if isSpace c then skipTrivia (p.next c) .between cs else .ok (p, c :: cs)
  | .between, [] => .ok (p, [])
  | .lineComment, c :: cs =>
    if c = '\n' then skipTrivia (p.next c) .between cs
    else if c = nul then .ok (p, c :: cs)
    else skipTrivia (p.next c) .lineComment cs
  | .lineComment, [] => .ok (p, [])
  | .blockComment, '*' :: '/' :: cs => skipTrivia ((p.next '*').next '/') .between cs
  | .blockComment, c :: cs => skipTrivia (p.next c) .blockComment cs
  | .blockComment, [] => .error ⟨.unterminatedComment, p⟩

/-! ### Lexemes -/

/-- A lexeme that has been read, and where the rest of the text begins. -/
structure Lexeme where
  kind : TokenKind
  text : List Char
  stop : Position
  rest : List Char

/-- A character that can begin a word. -/
def isWordStart (c : Char) : Bool :=
  Text.isLetter c || c = '_'

/-- A character that can continue a word. -/
def isWordChar (c : Char) : Bool :=
  Text.isAlphanumeric c || c = '_'

/-- The character that an escape stands for. -/
def escape? : Char → Option Char
  | 'n' => some '\n'
  | 't' => some '\t'
  | 'r' => some '\r'
  | '\\' => some '\\'
  | '"' => some '"'
  | '\'' => some '\''
  | _ => none

/-- The contents of a string literal, up to and with the closing quote. The literal begins at
`start`. -/
def stringBody (start p : Position) :
    List Char → Except LexError (List Char × Position × List Char)
  | [] => .error ⟨.unterminatedString, start⟩
  | ['\\'] => .error ⟨.unknownEscape nul, p.next '\\'⟩
  | '\\' :: e :: cs =>
    match escape? e with
    | none => .error ⟨.unknownEscape e, p.next '\\'⟩
    | some c => do
      let (text, q, rest) ← stringBody start ((p.next '\\').next e) cs
      return (c :: text, q, rest)
  | c :: cs =>
    if c = nul || c = '\n' then .error ⟨.unterminatedString, start⟩
    else if c = '"' then .ok ([], p.next c, cs)
    else do
      let (text, q, rest) ← stringBody start (p.next c) cs
      return (c :: text, q, rest)

/-- The check of a number literal, once its end is known. -/
def finishNumber (start : Position) (lx : Lexeme) : Except ScanError Lexeme :=
  match lx.rest with
  | c :: _ =>
    if isWordStart c then .error (.lexical ⟨.charAfterNumber c, lx.stop⟩) else checkRange
  | [] => checkRange
where
  /-- An integer literal has to fit into 64 bits. -/
  checkRange : Except ScanError Lexeme :=
    match lx.kind with
    | .int =>
      match Numeral.readInt (String.ofList lx.text) with
      | .error e => .error (.numeral e)
      | .ok n =>
        if maxInt < n then .error (.lexical ⟨.intTooLarge (String.ofList lx.text), start⟩)
        else .ok lx
    | _ => .ok lx

/-- A number literal, whose first character is a digit. -/
def number (p : Position) (cs : List Char) : Except ScanError Lexeme :=
  let (whole, rest) := cs.span Text.isDigit
  let q := p.after whole
  match rest with
  | '.' :: more =>
    let (fraction, rest) := more.span Text.isDigit
    if fraction.isEmpty then
      .error (.lexical ⟨.missingFraction, { q with column := q.column + 1 }⟩)
    else
      finishNumber p ⟨.float, whole ++ '.' :: fraction, q.after ('.' :: fraction), rest⟩
  | rest => finishNumber p ⟨.int, whole, q, rest⟩

/-- A symbol, if one begins here. -/
def symbol? (p : Position) (cs : List Char) : Option Lexeme :=
  (symbols.find? fun (spelling, _) => spelling.isPrefixOf cs).map fun (spelling, kind) =>
    ⟨kind, spelling, p.after spelling, cs.drop spelling.length⟩

/-- The lexeme that begins with the character `c` and goes on with characters of `cs`. -/
def lexeme (p : Position) (c : Char) (cs : List Char) : Except ScanError Lexeme :=
  if isWordStart c then
    let (more, rest) := cs.span isWordChar
    .ok ⟨wordKind (String.ofList (c :: more)), c :: more, p.after (c :: more), rest⟩
  else if Text.isDigit c then number p (c :: cs)
  else if c = '"' then
    match stringBody p (p.next c) cs with
    | .ok (text, q, rest) => .ok ⟨.string, text, q, rest⟩
    | .error e => .error (.lexical e)
  else
    match symbol? p (c :: cs) with
    | some lx => .ok lx
    | none =>
      if c = '&' then .error (.lexical ⟨.singleAmpersand, p⟩)
      else if c = '|' then .error (.lexical ⟨.singleBar, p⟩)
      else .error (.lexical ⟨.unexpectedChar c, p⟩)

/-- The tokens of the text, of which at most `fuel` characters are left. -/
def scanFrom : (fuel : Nat) → Position → List Char → Except ScanError (List Token)
  | 0, p, _ => .ok [⟨.eof, "", p⟩]
  | fuel + 1, p, cs =>
    match skipTrivia p .between cs with
    | .error e => .error (.lexical e)
    | .ok (p, []) => .ok [⟨.eof, "", p⟩]
    | .ok (p, c :: cs) => do
      let lx ← lexeme p c cs
      let tokens ← scanFrom fuel lx.stop lx.rest
      return ⟨lx.kind, String.ofList lx.text, p⟩ :: tokens

/-- The tokens of a source text, with the end of file as the last one. -/
def scan (source : String) : Except ScanError (List Token) :=
  scanFrom (source.toList.length + 1) .first source.toList

end Token

end Pigeon
