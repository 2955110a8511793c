/-!
# The journal

Messages about the work of an interpreter. A message has a level, and the context of the
interpreter says up to which level messages are kept, and whether they carry a time and their
level.
-/

namespace Pigeon

/-- The levels of messages. -/
inductive LogLevel where
  | silent
  | error
  | warning
  | info
  | debug
  deriving DecidableEq, Repr

namespace LogLevel

/-- The place of a level in the order of levels. -/
def rank : LogLevel → Nat
  | silent => 0
  | error => 3
  | warning => 6
  | info => 10
  | debug => 30

/-- The name of a level. -/
def name : LogLevel → String
  | silent => "SILENT"
  | error => "ERROR"
  | warning => "WARNING"
  | info => "INFO"
  | debug => "DEBUG"

/-- All levels. -/
def all : List LogLevel :=
  [silent, error, warning, info, debug]

/-- The level with a given name. -/
def ofName? (s : String) : Option LogLevel :=
  all.find? (·.name = s)

end LogLevel

/-- Which messages are kept, and how they are written. -/
structure LogContext where
  level : LogLevel := .warning
  rich : Bool := false
  deriving DecidableEq, Repr

/-- What stands before a message: in rich form the time and the level, except for the silent
level. -/
def LogContext.lead (c : LogContext) (time : String) (level : LogLevel) : String :=
  if c.rich && level ≠ .silent then s!"{time} [{level.name}] " else ""

/-- The messages so far. -/
structure Journal where
  context : Option LogContext
  /-- The time that rich messages carry. -/
  time : String
  text : String := ""

namespace Journal

/-- Adds a line. -/
def line (j : Journal) (s : String) : Journal :=
  { j with text := j.text ++ s ++ "\n" }

/-- Adds a message if the context admits its level. Without a context every message is kept, after
a remark on that. -/
def log (j : Journal) (level : LogLevel) (message : String) : Journal :=
  match j.context with
  | none => (j.line "No context provided for logging.").line message
  | some c => if level.rank ≤ c.level.rank then j.line (c.lead j.time level ++ message) else j

/-- Adds an error message. -/
def error (j : Journal) (message : String) : Journal :=
  j.log .error message

/-- Adds a message about the progress of the work. -/
def info (j : Journal) (message : String) : Journal :=
  j.log .info message

/-- Adds a message about details. -/
def debug (j : Journal) (message : String) : Journal :=
  j.log .debug message

/-- Adds a message about the beginning of a stage, with the subject of the stage if it is known
and not empty. -/
def stage (j : Journal) (name : String) (subject : Option String) : Journal :=
  match subject with
  | none | some "" => j.info s!"{name}..."
  | some s => j.info s!"{name} '{s}'"

end Journal

end Pigeon
