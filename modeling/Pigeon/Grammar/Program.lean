import Pigeon.Grammar.Expr

/-!
# Reading programs

Statements, function declarations and programs. A statement is known by its first token, and the
body of a statement or of a function is either a block between braces or a single statement.
-/

namespace Pigeon

namespace Reader

/-- The operators of an assignment. -/
def assignmentKinds : List TokenKind :=
  [.assign, .plusAssign, .minusAssign, .starAssign, .slashAssign, .percentAssign]

/-- A declaration of a variable or a constant. -/
def declaration (fuel : Nat) : Reader Stmt := do
  let start ← position
  let keyword ← advance
  let name ← expect .ident .variableName
  let _ ← expect .assign .initializer
  let value ← expr fuel
  let _ ← expect .semi .endOfDeclaration
  return .declare name.text value (keyword.kind = .kwConst) (← spanFrom start)

/-- A call as a statement, or an assignment. -/
def callOrAssignment (fuel : Nat) : Reader Stmt := do
  let start ← position
  if (← get).nextKind = .lparen then
    let callee ← call fuel
    let _ ← expect .semi .endOfCall
    return .call callee (← spanFrom start)
  else
    let name ← advance
    match ← accept? assignmentKinds with
    | none => fail (.expected (.assignmentTo name.text))
    | some op =>
      let value ← expr fuel
      let _ ← expect .semi .endOfAssignment
      return .assign name.text (.ofSymbol op.text) value (← spanFrom start)

/-- A return with or without a value. -/
def returning (fuel : Nat) : Reader Stmt := do
  let start ← position
  let _ ← advance
  let value ← if (← here).kind = .semi then pure none else some <$> expr fuel
  let _ ← expect .semi .endOfReturn
  return .ret value (← spanFrom start)

/-- A statement that is a single word. -/
def wordStmt (stmt : Option Span → Stmt) (what : Expected) : Reader Stmt := do
  let start ← position
  let _ ← advance
  let _ ← expect .semi what
  return stmt (← spanFrom start)

mutual

/-- A statement. -/
def stmt : (fuel : Nat) → Reader Stmt
  | 0 => throw .tooDeep
  | fuel + 1 => do
    let start ← position
    match (← here).kind with
    | .kwLet | .kwConst => declaration fuel
    | .kwIf =>
      let _ ← advance
      let cond ← expr fuel
      let yes ← block fuel
      match ← accept? [.kwElse] with
      | none => return .ifThen cond yes (← spanFrom start)
      | some _ =>
        let no ← block fuel
        return .ifThenElse cond yes no (← spanFrom start)
    | .kwWhile =>
      let _ ← advance
      let cond ← expr fuel
      let body ← block fuel
      return .whileDo cond body (← spanFrom start)
    | .kwDo =>
      let _ ← advance
      let body ← block fuel
      let _ ← expect .kwWhile .whileAfterBody
      let cond ← expr fuel
      let _ ← expect .semi .endOfDoWhile
      return .doWhile body cond (← spanFrom start)
    | .kwFor =>
      let _ ← advance
      let counter ← expect .ident .counterName
      let _ ← expect .assign .counterStart
      let first ← expr fuel
      match ← accept? [.kwTo, .kwDownto] with
      | none => fail (.expected .direction)
      | some direction =>
        let bound ← expr fuel
        let body ← block fuel
        return .forCount counter.text first bound (.ofWord direction.text) body (← spanFrom start)
    | .kwBreak => wordStmt .brk .endOfBreak
    | .kwContinue => wordStmt .cont .endOfContinue
    | .kwReturn => returning fuel
    | .ident => callOrAssignment fuel
    | .lbrace => fail .blockAsStatement
    | .type => fail .nestedFunction
    | _ => fail .noStatement

/-- The body of a statement or of a function. -/
def block : (fuel : Nat) → Reader Block
  | 0 => throw .tooDeep
  | fuel + 1 => do
    let start ← position
    match ← accept? [.lbrace] with
    | some _ =>
      let body ← stmts fuel
      let _ ← advance
      return .mk body true (← spanFrom start)
    | none =>
      let s ← stmt fuel
      return .mk [s] false (← spanFrom start)

/-- Statements up to a closing brace, which is not passed. -/
def stmts : (fuel : Nat) → Reader (List Stmt)
  | 0 => throw .tooDeep
  | fuel + 1 => do
    match (← here).kind with
    | .rbrace => return []
    | .eof => fail .unclosedBlock
    | _ =>
      let s ← stmt fuel
      return s :: (← stmts fuel)

end

/-- One or more parameters with commas between them. -/
def params : (fuel : Nat) → Reader (List Param)
  | 0 => throw .tooDeep
  | fuel + 1 => do
    let start ← position
    let type ← expect .type .paramType
    let name ← expect .ident .paramName
    let param : Param := ⟨name.text, type.text, ← spanFrom start⟩
    match ← accept? [.comma] with
    | none => return [param]
    | some _ => return param :: (← params fuel)

/-- A function declaration. -/
def function (fuel : Nat) : Reader FuncDecl := do
  let start ← position
  let type ← advance
  let name ← expect .ident .functionName
  let _ ← expect .lparen .openingParams
  let ps ← if (← here).kind = .rparen then pure [] else params fuel
  let _ ← expect .rparen .closingParams
  let body ← block fuel
  return ⟨name.text, ps, type.text, body, ← spanFrom start⟩

/-- Function declarations and statements up to the end of file. -/
def items : (fuel : Nat) → Reader (List Item)
  | 0 => throw .tooDeep
  | fuel + 1 => do
    match (← here).kind with
    | .eof => return []
    | .type =>
      let decl ← function fuel
      return .func decl :: (← items fuel)
    | _ =>
      let s ← stmt fuel
      return .stmt s :: (← items fuel)

/-- A program. -/
def program (fuel : Nat) (filename : Option String) : Reader Program := do
  let start ← position
  let body ← items fuel
  return ⟨body, ← spanFrom start, filename⟩

end Reader

/-- The bound on the depth of the readers for a number of tokens. -/
def Reader.depthFor (tokens : Nat) : Nat :=
  16 * (tokens + 1)

/-- The program that a list of tokens stands for. -/
def Program.ofTokens (tokens : List Token) (filename : Option String) :
    Except ReadError Program :=
  (Reader.program (Reader.depthFor tokens.length) filename).run' (.ofTokens tokens)

end Pigeon
