import Pigeon.Grammar.Cursor
import Pigeon.Tree

/-!
# Reading expressions

The binary operators form levels, from `||` as the loosest to `*` as the tightest one. All are
left-associative. A conditional expression is looser than all of them and right-associative, and a
unary operator is tighter.

The readers share a bound on the depth of their calls. Between two tokens the depth grows by a
constant at most, so a bound in proportion to the number of tokens is never used up.
-/

namespace Pigeon.Reader

/-- The levels of binary operators, the loosest first. -/
def binaryLevels : List (List TokenKind) :=
  [[.or], [.and], [.eq, .ne], [.lt, .gt, .le, .ge], [.plus, .minus], [.star, .slash, .percent]]

mutual

/-- An expression. -/
def expr : (fuel : Nat) → Reader Expr
  | 0 => throw .tooDeep
  | fuel + 1 => do
    let start ← position
    let cond ← binary fuel binaryLevels
    match ← accept? [.question] with
    | none => return cond
    | some _ =>
      let yes ← expr fuel
      let _ ← expect .colon .ternaryColon
      let no ← expr fuel
      return .ternary cond yes no (← spanFrom start)

/-- An expression of the given levels. -/
def binary : (fuel : Nat) → List (List TokenKind) → Reader Expr
  | 0, _ => throw .tooDeep
  | fuel + 1, [] => unary fuel
  | fuel + 1, kinds :: tighter => do
    let start ← position
    let left ← binary fuel tighter
    binaryTail fuel start kinds tighter left

/-- The operators of one level, and their right operands, that follow the operand `left`. -/
def binaryTail : (fuel : Nat) → Position → List TokenKind → List (List TokenKind) → Expr →
    Reader Expr
  | 0, _, _, _, _ => throw .tooDeep
  | fuel + 1, start, kinds, tighter, left => do
    match ← accept? kinds with
    | none => return left
    | some op =>
      let right ← binary fuel tighter
      let span ← spanFrom start
      binaryTail fuel start kinds tighter (.binary (.ofSymbol op.text) left right span)

/-- A primary expression after any number of unary operators. -/
def unary : (fuel : Nat) → Reader Expr
  | 0 => throw .tooDeep
  | fuel + 1 => do
    let start ← position
    match ← accept? [.bang, .minus, .plus] with
    | none => primary fuel
    | some op =>
      let operand ← unary fuel
      return .unary (.ofSymbol op.text) operand (← spanFrom start)

/-- A literal, a variable, a call or an expression between parentheses. -/
def primary : (fuel : Nat) → Reader Expr
  | 0 => throw .tooDeep
  | fuel + 1 => do
    let start ← position
    match (← here).kind with
    | .int =>
      let t ← advance
      return .int (← numeral (Numeral.readInt t.text)) (← spanFrom start)
    | .float =>
      let t ← advance
      return .float (← numeral (Numeral.readFloat t.text)) (← spanFrom start)
    | .string =>
      let t ← advance
      return .string t.text (← spanFrom start)
    | .kwTrue =>
      let _ ← advance
      return .bool true (← spanFrom start)
    | .kwFalse =>
      let _ ← advance
      return .bool false (← spanFrom start)
    | .ident =>
      if (← get).nextKind = .lparen then call fuel
      else
        let t ← advance
        return .var t.text (← spanFrom start)
    | .lparen =>
      let _ ← advance
      let inner ← expr fuel
      let _ ← expect .rparen .closingParen
      return .paren inner (← spanFrom start)
    | _ => fail .noExpression

/-- A call: a name and arguments between parentheses. -/
def call : (fuel : Nat) → Reader Expr
  | 0 => throw .tooDeep
  | fuel + 1 => do
    let start ← position
    let name ← advance
    let _ ← advance
    let args ← if (← here).kind = .rparen then pure [] else arguments fuel
    let _ ← expect .rparen .closingArgs
    return .call name.text args (← spanFrom start)

/-- One or more expressions with commas between them. -/
def arguments : (fuel : Nat) → Reader (List Expr)
  | 0 => throw .tooDeep
  | fuel + 1 => do
    let arg ← expr fuel
    match ← accept? [.comma] with
    | none => return [arg]
    | some _ => return arg :: (← arguments fuel)

end

end Pigeon.Reader
