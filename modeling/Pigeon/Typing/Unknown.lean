import Pigeon.Operator
import Pigeon.Value

/-!
# Rules about unknown types

A host may ask for the typing rules without knowing all of the types. An unknown type is no number,
it is neither `void` nor `any`, and it equals only another unknown type. No value has it. On known
types the rules are those of the language.
-/

namespace Pigeon

/-- An argument of type `arg` can be passed where `param` is expected. -/
def Ty.acceptsUnknown (param arg : Option Ty) : Bool :=
  arg ≠ some void && (param = some any || param = arg)

/-- On known types the rule is `Ty.accepts`. -/
@[simp] theorem Ty.acceptsUnknown_some (param arg : Ty) :
    acceptsUnknown (some param) (some arg) = param.accepts arg := by
  simp [acceptsUnknown, accepts]

namespace BinOp

/-- The type of the result of `+`, `-`, `*` or `/`, if the operands are acceptable. -/
def arithmeticResultUnknown (op : BinOp) (l r : Option Ty) : Option Ty :=
  match l, r with
  | some l, some r => op.arithmeticResult l r
  | l, r => if op = add && l ≠ some .void && r ≠ some .void then some .string else none

/-- The type of the result, if the operands are acceptable. -/
def resultUnknown (op : BinOp) (l r : Option Ty) : Except UnknownOperator (Option Ty) :=
  match l, r with
  | some l, some r => op.result l r
  | l, r =>
    match op with
    | add | sub | mul | div => .ok (op.arithmeticResultUnknown l r)
    | eq | ne => .ok (if l = r then some .bool else none)
    | mod | lt | gt | le | ge | and | or => .ok none
    | other s => .error (.binary s)

/-- On known types the rule is `BinOp.result`. -/
@[simp] theorem resultUnknown_some (op : BinOp) (l r : Ty) :
    op.resultUnknown (some l) (some r) = op.result l r :=
  rfl

end BinOp

/-- The type of the result, if the operand is acceptable. -/
def UnOp.resultUnknown (op : UnOp) (t : Option Ty) : Except UnknownOperator (Option Ty) :=
  match t, op with
  | some t, op => op.result t
  | none, .other s => .error (.unary s)
  | none, _ => .ok none

/-- On a known type the rule is `UnOp.result`. -/
@[simp] theorem UnOp.resultUnknown_some (op : UnOp) (t : Ty) :
    op.resultUnknown (some t) = op.result t :=
  rfl

/-- The bare data of a value of the expected type. -/
def Value.expectUnknown (v : Value) (expected : Option Ty) : Except UnexpectedTag Payload :=
  match expected with
  | some t => v.expect t
  | none => .error ⟨none, v.ty⟩

/-- Fits a payload to a type. -/
def Payload.toValueUnknown (p : Payload) (t : Option Ty) : Except ConversionError Value :=
  match t, p with
  | some t, p => p.toValue t
  | Option.none, .value v => .error (.otherTag Option.none v.ty)
  | Option.none, p => .error (p.misfit (.unfit · Option.none))

end Pigeon
