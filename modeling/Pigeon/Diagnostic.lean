import Pigeon.Source.Position
import Pigeon.Text.Path
import Pigeon.Token
import Pigeon.Tree

/-!
# Diagnostics

What the front end reports about a program: a kind, a message and a place in a file.
-/

namespace Pigeon

/-- The kinds of diagnostics. -/
inductive DiagnosticKind where
  | syntaxError
  | duplicateDeclaration
  | unknownIdentifier
  | immutableAssignment
  | typeMismatch
  | argumentMismatch
  | structural
  deriving DecidableEq, Repr

namespace DiagnosticKind

/-- The name of a kind. -/
def name : DiagnosticKind → String
  | syntaxError => "syntax"
  | duplicateDeclaration => "duplicate-declaration"
  | unknownIdentifier => "unknown-identifier"
  | immutableAssignment => "immutable-assignment"
  | typeMismatch => "type-mismatch"
  | argumentMismatch => "argument-mismatch"
  | structural => "structural"

/-- All kinds. -/
def all : List DiagnosticKind :=
  [syntaxError, duplicateDeclaration, unknownIdentifier, immutableAssignment, typeMismatch,
    argumentMismatch, structural]

/-- The kind with a given name. -/
def ofName? (s : String) : Option DiagnosticKind :=
  all.find? (·.name = s)

end DiagnosticKind

/-- A report about a program. Any part of its place may be unknown. -/
structure Diagnostic where
  kind : DiagnosticKind
  message : String
  filename : Option String
  line : Option Int
  column : Option Int
  endLine : Option Int
  endColumn : Option Int
  deriving DecidableEq, Repr

namespace Diagnostic

/-- A report about the text of a span. -/
def atSpan (kind : DiagnosticKind) (message : String) (filename : Option String)
    (span : Option Span) : Diagnostic where
  kind := kind
  message := message
  filename := filename
  line := span.map (·.start.line)
  column := span.map (·.start.column)
  endLine := span.map (·.stop.line)
  endColumn := span.map (·.stop.column)

/-- A report about a position, whose end is unknown. -/
def atPosition (kind : DiagnosticKind) (message : String) (filename : Option String)
    (position : Option Position) : Diagnostic where
  kind := kind
  message := message
  filename := filename
  line := position.map (·.line)
  column := position.map (·.column)
  endLine := none
  endColumn := none

/-- The file, the line and the column as far as they are known. A column is shown only after a
line. -/
def place (d : Diagnostic) : String :=
  let file := (d.filename.map Text.absolutePath).getD ""
  match d.line, d.column with
  | some line, some column => s!"{file}:{line}:{column}"
  | some line, none => s!"{file}:{line}"
  | none, _ => file

/-- The report on one line. -/
def text (d : Diagnostic) : String :=
  let place := if d.place = "" then "" else d.place ++ ": "
  s!"{place}{d.kind.name} error: {d.message}"

/-- The codes of the messages, by family. -/
def codeFamilies : List (String × List String) :=
  [("LEX", codes "LEX" ["0010", "0040", "0041", "0042", "0059", "0060", "0061", "0062", "0070"]),
    ("PAR", codes "PAR"
      ["0040", "0041", "0042", "0043", "0044", "0045", "0091", "0100", "0101", "0102", "0110",
        "0111", "0112", "0113", "0114", "0115", "0120", "0130", "0133", "0134", "0135", "0140",
        "0141", "0142", "0143", "0150", "0151", "0190", "0191", "0200", "0201", "0209", "0210",
        "0212", "0220", "0224", "0225"]),
    ("SIG", codes "SIG" ["0010", "0020", "0030"]),
    ("TYP", codes "TYP"
      ["0010", "0020", "0050", "0060", "0061", "0062", "0063", "0064", "0065", "0070", "0080",
        "0081", "0090", "0110", "0120", "0160", "0161", "0170", "0171", "0172", "0173", "0174",
        "0175", "0180", "0181", "0183", "0184", "0185", "0189", "0260", "0261", "0262", "0263"])]
where
  /-- The codes of one family. -/
  codes (family : String) (numbers : List String) : List String :=
    numbers.map fun n => family ++ "-" ++ n

end Diagnostic

end Pigeon
