import Pigeon.Native.Console

/-!
# Ready-made callbacks

Simple native functions for hosts that need no more than a fixed answer or a trace of the calls.
-/

namespace Pigeon.Callback

/-- Always gives the same data. -/
def constant (p : Payload) : Callback := fun _ host => (.ok p, host)

/-- The argument at a place; a negative place counts from the end. -/
def select (args : List Value) (i : Int) : Except Failure Value :=
  let i := if i < 0 then args.length + i else i
  if i < 0 then .error .outOfRange else Console.argument args i.toNat

/-- Gives back the argument at a place. -/
def argument (i : Int) : Callback := fun args host =>
  ((select args i).map .value, host)

/-- Gives back the bare data of the argument at a place. -/
def data (i : Int) : Callback := fun args host =>
  ((select args i).map Value.payload, host)

/-- Gives the data in turn, and begins anew after the last one. -/
def cycle (name : String) (payloads : List Payload) : Callback := fun _ host =>
  let turn := host.answerCount name % payloads.length
  (.ok (payloads[turn]?.getD .none), host.countAnswer name)

/-- Writes the call with the types and texts of its arguments. -/
def record (name : String) : Callback := fun args host =>
  let shown := args.map fun v => v.ty.name ++ ":" ++ v.text
  (.ok .none, host.write (name ++ "(" ++ ", ".intercalate shown ++ ")\n"))

end Pigeon.Callback
