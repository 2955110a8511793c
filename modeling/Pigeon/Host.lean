import Pigeon.Failure

/-!
# The host

What native functions can see and change: the console output, the input that has not been read,
and how often each native has answered. They cannot reach the scopes of a program.
-/

namespace Pigeon

/-- The state of the host. -/
structure Host where
  /-- What was written to the console. -/
  output : String := ""
  /-- The input that was not read yet. -/
  input : List Char := []
  /-- How often a native has answered. -/
  answers : List (String × Nat) := []

namespace Host

/-- Writes to the console. -/
def write (h : Host) (s : String) : Host :=
  { h with output := h.output ++ s }

/-- A line of input without its line feed, and the input after the line feed. At the end of the
input the line is empty. -/
def splitLine (cs : List Char) : List Char × List Char :=
  let (line, rest) := cs.span (· ≠ '\n')
  (line, rest.drop 1)

/-- Reads a line. -/
def readLine (h : Host) : List Char × Host :=
  let (line, rest) := splitLine h.input
  (line, { h with input := rest })

/-- How often the native of this name has answered. -/
def answerCount (h : Host) (name : String) : Nat :=
  (h.answers.lookup name).getD 0

/-- Counts one more answer of the native of this name. -/
def countAnswer (h : Host) (name : String) : Host :=
  { h with answers := (name, h.answerCount name + 1) :: h.answers.filter (·.1 ≠ name) }

end Host

/-- A native function: it takes the arguments in order and gives data to be fitted to its result
type. -/
abbrev Callback := List Value → Host → Except Failure Payload × Host

end Pigeon
