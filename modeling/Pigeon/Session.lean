import Pigeon.Execution.Program
import Pigeon.Grammar.Program
import Pigeon.Journal
import Pigeon.Native.Registry
import Pigeon.Tree.Outline
import Pigeon.Typing.Program

/-!
# Sessions

A session holds all that belongs to the interpretation of one program: its tree, its global scope,
the types of its expressions, the diagnostics, the host and the journal. The stages can be run one
by one, or all of them by `Session.load`, after which a program without diagnostics can be
evaluated any number of times.
-/

namespace Pigeon

/-- The name of a source text without a file. -/
def unnamedSource : String := "<input>"

/-- Reads a program. Lexical errors name the source, syntax errors the file. -/
def Program.ofSource (source sourceName : String) (filename : Option String) :
    Except Failure Program :=
  match Token.scan source with
  | .error e => .error (.ofScanError sourceName e)
  | .ok tokens =>
    match Program.ofTokens tokens filename with
    | .error e => .error (.ofReadError filename e)
    | .ok p => .ok p

/-- The types of expressions. -/
structure Annotations where
  /-- The types of the expressions of the current program, in the order of `Program.exprs`. -/
  current : Array (Option Ty) := #[]
  /-- The number of expressions of earlier programs whose types were recorded. -/
  earlier : Nat := 0

namespace Annotations

/-- The number of recorded types. -/
def count (a : Annotations) : Nat :=
  a.earlier + a.current.countP (·.isSome)

/-- The annotations once another program takes the place of the current one. -/
def retire (a : Annotations) : Annotations :=
  { current := #[], earlier := a.count }

/-- The recorded type of the expression at a place. -/
def get? (a : Annotations) (i : Nat) : Option Ty :=
  (a.current[i]?).join

/-- Adds the types that a check has found. What was recorded before stays where nothing new was
found. -/
def overlay (a : Annotations) (found : Array (Option Ty)) : Annotations :=
  let size := max a.current.size found.size
  { a with current := Array.ofFn fun i : Fin size => ((found[i.val]?).join).or (a.get? i) }

end Annotations

/-- The interpretation of one program. -/
structure Session where
  journal : Journal
  natives : Natives
  host : Host
  arena : Arena
  globals : Handle
  program : Option Program := none
  annotations : Annotations := {}
  diagnostics : List Diagnostic := []

namespace Session

/-- A session without a program and with an empty global scope. -/
def start (natives : Natives) (host : Host) (context : Option LogContext) (time : String) :
    Session :=
  let (g, a) := ({} : Arena).newScope none
  { journal := { context := context, time := time }, natives := natives, host := host,
    arena := a, globals := g }

/-- A step of a session, which keeps what was done before a failure. -/
abbrev Step := ExceptT Failure (StateM Session)

/-- Changes the journal. -/
def note (f : Journal → Journal) : Step Unit :=
  modify fun s => { s with journal := f s.journal }

/-- The outcome of an operation. -/
def ofExcept {α : Type} (x : Except Failure α) : Step α :=
  match x with
  | .ok a => return a
  | .error e => throw e

/-- Takes what was written to the console since the last time. -/
def takeOutput (s : Session) : String × Session :=
  (s.host.output, { s with host := { s.host with output := "" } })

/-- Another program takes the place of the current one. -/
def setProgram (p : Program) : Step Unit :=
  modify fun s => { s with program := some p, annotations := s.annotations.retire }

/-- Reads a program, which takes the place of the current one. -/
def parse (source : String) (filename : Option String) : Step Unit := do
  setProgram (← ofExcept (Program.ofSource source unnamedSource filename))

/-- Installs the natives into the global scope. -/
def install : Step Unit := do
  let s ← get
  let (result, arena) := s.natives.install s.globals s.arena
  set { s with arena := arena }
  ofExcept result

/-- Gives the native variables their first values again. -/
def reset : Step Unit := do
  let s ← get
  let (result, arena) := s.natives.reset s.globals s.arena
  set { s with arena := arena }
  ofExcept result

/-- Declares the functions of the program, if there is one. -/
def predeclare (filename : Option String) : Step Unit := do
  let s ← get
  match s.program with
  | none => return
  | some p =>
    let d := FuncDecl.predeclareAll filename s.globals p.functions s.arena
    set { s with arena := d.arena, diagnostics := s.diagnostics ++ d.diagnostics }
    ofExcept d.result

/-- Checks the program. -/
def check : Step Unit := do
  let s ← get
  match s.program with
  | none => throw (.argument .nothingToCheck)
  | some p =>
    let c := p.check s.globals s.arena
    let annotations := s.annotations.overlay c.types
    set { s with
      arena := c.arena
      diagnostics := s.diagnostics ++ c.diagnostics
      annotations := annotations }
    ofExcept c.result
    let typed := annotations.count
    note (·.debug s!"Analyzed {p.items.length} top-level item(s), {typed} typed expression(s)")

/-- Forgets the diagnostics. -/
def clear : Step Unit :=
  modify fun s => { s with diagnostics := [] }

/-- Runs the program, which must have no diagnostics. -/
def run (limits : Limits) : Step Unit := do
  let s ← get
  match s.program with
  | none => throw (.usage .noProgram)
  | some p =>
    if !s.diagnostics.isEmpty then throw (.usage (.hasErrors s.diagnostics.length))
    else
      set { s with host := {} }
      let (result, arena, host) := p.run limits s.globals s.arena s.host
      modify fun s => { s with arena := arena, host := host }
      ofExcept result
      note (·.debug s!"Evaluation finished, {arena.liveCount} live scope(s)")

/-- A recorded type; an expression without one is a defect. -/
def typeOf (index : Nat) : Step Ty := do
  let s ← get
  match (s.program.map Program.exprs).bind (·[index]?) with
  | none => throw .outOfRange
  | some e =>
    match s.annotations.get? index with
    | some t => return t
    | none =>
      throw (.defect (.noTypeRecorded e.kindName) (some ⟨s.program.bind (·.filename), e.span⟩))

/-- The expressions of the program with their recorded types. -/
def types (s : Session) : List (Expr × Option Ty) :=
  match s.program with
  | none => []
  | some p => p.exprs.zipIdx.map fun (e, i) => (e, s.annotations.get? i)

/-- The symbols of the global scope. -/
def symbols (s : Session) : List Symbol :=
  match s.arena.globals s.globals with
  | .ok symbols => symbols
  | .error _ => []

/-- The diagnostics, one on each line. -/
def errorText (s : Session) : String :=
  "\n".intercalate (s.diagnostics.map Diagnostic.text)

/-- The outline of the program, or the empty text. -/
def outlineText (s : Session) : String :=
  match s.program with
  | none => ""
  | some p => "\n".intercalate (p.lines true)

/-- Reads the program. An error in the source becomes the only diagnostic; true if there is none. -/
def loadProgram (source : String) (filename : Option String) : Step Bool := do
  let diagnose (message : String) (position : Position) : Step Bool := do
    modify fun s =>
      { s with diagnostics := [.atPosition .syntaxError message filename (some position)] }
    return false
  match Token.scan source with
  | .error (.lexical e) => diagnose e.message e.position
  | .error (.numeral e) => throw (.argument (.numeral e))
  | .ok tokens =>
    note (·.debug s!"Lexed {tokens.length} token(s)")
    match Program.ofTokens tokens filename with
    | .error (.grammar e) => diagnose e.message e.token.position
    | .error e => throw (.ofReadError filename e)
    | .ok p =>
      setProgram p
      return true

/-- Runs all stages before evaluation. A mistake in the program becomes a diagnostic, and one in
its syntax ends the work. -/
def load (source : String) (filename : Option String) : Step Unit := do
  note (·.stage "Parsing" filename)
  if ← loadProgram source filename then
    let items := ((← get).program.map (·.items.length)).getD 0
    note (·.debug s!"Parsed {items} top-level item(s)")
    note (·.stage "Registering natives" none)
    install
    let names := (← get).natives.names.length
    note (·.debug s!"Registered {names} native(s)")
    note (·.stage "Declaring functions" none)
    predeclare filename
    note (·.stage "Analyzing" none)
    check
    let errors := (← get).diagnostics.length
    note (·.info s!"Analysis complete: {errors} error(s)")

/-- Evaluates a loaded program, with the native variables at their first values. A failure of the
run is written to the journal. -/
def evaluate (filename : Option String) (limits : Limits) : Step Unit := do
  let s ← get
  if !s.diagnostics.isEmpty then throw (.usage (.hasErrorsUnseen s.diagnostics.length))
  else
    note (·.stage "Evaluating" filename)
    reset
    tryCatch (run limits) fun e => do
      match e.report? with
      | some line => note (·.error line)
      | none => pure ()
      throw e

end Session

end Pigeon
