import Pigeon.Failure

/-!
# Operators on values

A binary operator chooses its meaning from the types of its operands. Integers wrap around at 64
bits, division truncates towards zero and the remainder has the sign of the dividend. Both
operands of `&&` and `||` are values, so both have been evaluated.
-/

namespace Pigeon

namespace UnOp

/-- Applies a unary operator. -/
def apply (op : UnOp) (v : Value) (span : Option Span) : Except Failure Value :=
  match op, v with
  | .not, .bool b => .ok (.bool !b)
  | .not, v => .error (.runtime (.unexpectedType .bool v.ty) span)
  | .pos, .int n => .ok (.int n)
  | .pos, .float x => .ok (.float x)
  | .neg, .int n => .ok (.int (-n))
  | .neg, .float x => .ok (.float (-x))
  | .other s, _ => .error (.argument (.unknownOperator (.unary s)))
  | op, v => .error (.runtime (.unaryOperand op v.ty) span)

end UnOp

namespace BinOp

/-- Arithmetic on integers. -/
def applyInt (op : BinOp) (a b : Int64) (span : Option Span) : Except Failure (Option Value) :=
  match op with
  | .add => .ok (some (.int (a + b)))
  | .sub => .ok (some (.int (a - b)))
  | .mul => .ok (some (.int (a * b)))
  | .div =>
    if b = 0 then .error (.runtime .divisionByZero span) else .ok (some (.int (a / b)))
  | .mod =>
    if b = 0 then .error (.runtime .moduloByZero span) else .ok (some (.int (a % b)))
  | .lt => .ok (some (.bool (a < b)))
  | .gt => .ok (some (.bool (b < a)))
  | .le => .ok (some (.bool (a ≤ b)))
  | .ge => .ok (some (.bool (b ≤ a)))
  | _ => .ok none

/-- Arithmetic on floats; there is no remainder. -/
def applyFloat (op : BinOp) (x y : Float) : Option Value :=
  match op with
  | .add => some (.float (x + y))
  | .sub => some (.float (x - y))
  | .mul => some (.float (x * y))
  | .div => some (.float (x / y))
  | .lt => some (.bool (x < y))
  | .gt => some (.bool (y < x))
  | .le => some (.bool (x ≤ y))
  | .ge => some (.bool (y ≤ x))
  | _ => none

/-- The concatenation of the texts of two values, neither of which is void. -/
def concat (op : BinOp) (l r : Value) : Option Value :=
  if op = .add && l.ty ≠ .void && r.ty ≠ .void then some (.string (l.text ++ r.text)) else none

/-- The result of an operator other than an equality, if the operands are acceptable. -/
def applyTagged (op : BinOp) (l r : Value) (span : Option Span) : Except Failure (Option Value) :=
  match l, r with
  | .int a, .int b => op.applyInt a b span
  | .int a, .float y => .ok (op.applyFloat (Float.ofInt a.toInt) y)
  | .float x, .int b => .ok (op.applyFloat x (Float.ofInt b.toInt))
  | .float x, .float y => .ok (op.applyFloat x y)
  | .bool a, .bool b =>
    match op with
    | .and => .ok (some (.bool (a && b)))
    | .or => .ok (some (.bool (a || b)))
    | op => .ok (op.concat l r)
  | l, r => .ok (op.concat l r)

/-- Applies a binary operator. Values of different types are different, and comparing them is no
failure. -/
def apply (op : BinOp) (l r : Value) (span : Option Span) : Except Failure Value :=
  match op with
  | .eq => .ok (.bool (l.same r))
  | .ne => .ok (.bool (!l.same r))
  | .other s => .error (.argument (.unknownOperator (.binary s)))
  | op =>
    match op.applyTagged l r span with
    | .error e => .error e
    | .ok (some v) => .ok v
    | .ok none => .error (.runtime (.binaryOperands op l.ty r.ty) span)

end BinOp

end Pigeon
