import Pigeon.Ty
import Pigeon.Decimal.Layout
import Pigeon.Decimal.Numeral
import Pigeon.Text.Quoted

/-!
# Values

A value carries its type as its constructor. Integers are 64-bit words, and an unbounded integer
is wrapped into that range when it becomes a value. A *payload* is what a host hands over in place
of a value: it may already be a value, or bare data that still has to be fitted to a type.
-/

namespace Pigeon

/-- A value of a running program. -/
inductive Value where
  | int (n : Int64)
  | float (x : Float)
  | bool (b : Bool)
  | string (s : String)
  | void

/-- Data from the host. -/
inductive Payload where
  | int (n : Int)
  | float (x : Float)
  | bool (b : Bool)
  | string (s : String)
  | none
  | value (v : Value)

/-- A value has another type than the one asked for, which may be unknown. -/
structure UnexpectedTag where
  expected : Option Ty
  actual : Ty
  deriving DecidableEq, Repr

/-- Why a payload cannot become a value of a type, which may be unknown. -/
inductive ConversionError where
  /-- A tagged value has another type. -/
  | otherTag (expected : Option Ty) (actual : Ty)
  /-- A void result came with data, shown as text. -/
  | voidWithData (shown : String)
  /-- The data, shown as text, does not fit the type. -/
  | unfit (shown : String) (expected : Option Ty)
  /-- An integer is too large for a float. -/
  | overflow
  /-- The data does not fit, and it is an integer with too many digits to be shown. -/
  | tooManyDigits
  deriving DecidableEq, Repr

/-- The text of the error. -/
def ConversionError.message : ConversionError → String
  | otherTag expected actual =>
    s!"expected a '{Ty.nameOrNone expected}' value, got '{actual.name}'"
  | voidWithData shown => s!"void value must be None, got {shown}"
  | unfit shown expected => s!"cannot use {shown} as a value of type '{Ty.nameOrNone expected}'"
  | overflow => "int too large to convert to float"
  | tooManyDigits =>
    s!"Exceeds the limit ({Numeral.maxDigits} digits) for integer string conversion; " ++
      "use sys.set_int_max_str_digits() to increase the limit"

namespace Value

/-- Floats are written positionally from `10 ^ -4` up to below `10 ^ 16`, and exponents have at
least two digits. -/
def floatLayout : Decimal.Layout where
  positionalFrom := -4
  positionalBelow := 16
  exponentWidth := 2

/-- The text of a float. -/
def floatText (x : Float) : String :=
  floatLayout.text x

/-- The text of a truth value. -/
def boolText (b : Bool) : String :=
  if b then "true" else "false"

/-- The type of a value. -/
def ty : Value → Ty
  | int _ => .int
  | float _ => .float
  | bool _ => .bool
  | string _ => .string
  | void => .void

/-- The value of an unbounded integer, which is wrapped to 64 bits. -/
def ofInt (n : Int) : Value :=
  int (Int64.ofInt n)

/-- The text of a value in a concatenation. -/
def text : Value → String
  | int n => toString n.toInt
  | float x => floatText x
  | bool b => boolText b
  | string s => s
  | void => ""

/-- The two values have the same type and equal data. -/
def same : Value → Value → Bool
  | int a, int b => a == b
  | float x, float y => x == y
  | bool a, bool b => a == b
  | string s, string t => s == t
  | void, void => true
  | _, _ => false

/-- The bare data of a value. -/
def payload : Value → Payload
  | int n => .int n.toInt
  | float x => .float x
  | bool b => .bool b
  | string s => .string s
  | void => .none

/-- The bare data of a value of the expected type. -/
def expect (v : Value) (expected : Ty) : Except UnexpectedTag Payload :=
  if v.ty = expected then .ok v.payload else .error ⟨some expected, v.ty⟩

/-- The data of a number, widened to a float. -/
def asFloat : Value → Except UnexpectedTag Float
  | int n => .ok (Float.ofInt n.toInt)
  | float x => .ok x
  | v => .error ⟨some .float, v.ty⟩

end Value

namespace Payload

/-- The payload as it is shown in messages. -/
def shown : Payload → String
  | int n => toString n
  | float x => Value.floatText x
  | bool b => if b then "True" else "False"
  | string s => Text.quoted s
  | none => "None"
  | value v => v.text

/-- The error for data that does not fit, which shows the data if it can be shown. An integer can be
shown if it has no more digits than an integer numeral may have. -/
def misfit (p : Payload) (e : String → ConversionError) : ConversionError :=
  match p with
  | int n =>
    if Numeral.maxDigits < (Nat.toDigits 10 n.natAbs).length then .tooManyDigits else e p.shown
  | p => e p.shown

/-- The float nearest to an integer, unless that would be infinite. -/
def widen? (n : Int) : Option Float :=
  let x := Float.ofInt n
  if x.isInf then Option.none else some x

/-- Fits a payload to a type. Integers are wrapped for `int` and widened for `float`; a truth value
is no integer. -/
def toValue (p : Payload) (t : Ty) : Except ConversionError Value :=
  match p, t with
  | value v, t => if v.ty = t then .ok v else .error (.otherTag (some t) v.ty)
  | none, .void => .ok .void
  | p, .void => .error (p.misfit .voidWithData)
  | int n, .int => .ok (.ofInt n)
  | int n, .float =>
    match widen? n with
    | some x => .ok (.float x)
    | Option.none => .error .overflow
  | float x, .float => .ok (.float x)
  | bool b, .bool => .ok (.bool b)
  | string s, .string => .ok (.string s)
  | p, t => .error (p.misfit (.unfit · (some t)))

end Payload

end Pigeon
