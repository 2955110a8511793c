import Pigeon.Native.Registry
import Pigeon.Text.Blank
import Pigeon.Text.LowerCase

/-!
# The console

The natives of the console: `print` writes a value and a line feed, and the prompts write a text
and read a line as a value of their type.
-/

namespace Pigeon.Console

/-- The argument at a place. -/
def argument (args : List Value) (i : Nat) : Except Failure Value :=
  match args[i]? with
  | some v => .ok v
  | none => .error .outOfRange

/-- Writes the argument and a line feed. -/
def print : Callback := fun args host =>
  match argument args 0 with
  | .error e => (.error e, host)
  | .ok v => (.ok .none, (host.write v.text).write "\n")

/-- Writes the argument, reads a line without the line break at its end and hands it on. -/
def prompting (read : String → Except Failure Payload) : Callback := fun args host =>
  match argument args 0 with
  | .error e => (.error e, host)
  | .ok v =>
    let (line, host) := (host.write v.text).readLine
    (read (String.ofList (Text.trimEnd (fun c => c = '\r' || c = '\n') line)), host)

/-- The line without the blanks around it. -/
def trimmed (line : String) : String :=
  String.ofList (Text.trim line.toList)

/-- A line that is no literal of the type. -/
def unreadable (ty : Ty) (line : String) : Except Failure Payload :=
  .error (.runtime (.unreadable ty line) none)

/-- The line as an integer. -/
def readInt (line : String) : Except Failure Payload :=
  match Numeral.readInt (trimmed line) with
  | .ok n => .ok (.int n)
  | .error _ => unreadable .int line

/-- The line as a float. -/
def readFloat (line : String) : Except Failure Payload :=
  match Numeral.readFloat (trimmed line) with
  | .ok x => .ok (.float x)
  | .error _ => unreadable .float line

/-- The line as a truth value, in any case. -/
def readBool (line : String) : Except Failure Payload :=
  match Text.lowerCase (trimmed line) with
  | "true" => .ok (.bool true)
  | "false" => .ok (.bool false)
  | word => unreadable .bool word

/-- The natives of the console. -/
def natives : Natives where
  funcs :=
    [⟨.void, "print", print, [.any]⟩,
      ⟨.string, "prompt", prompting fun line => .ok (.string line), [.string]⟩,
      ⟨.int, "prompt_i", prompting readInt, [.string]⟩,
      ⟨.float, "prompt_f", prompting readFloat, [.string]⟩,
      ⟨.bool, "prompt_b", prompting readBool, [.string]⟩]
  claimed := ["print", "prompt", "prompt_i", "prompt_f", "prompt_b"]

end Pigeon.Console
