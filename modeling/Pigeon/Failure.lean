import Pigeon.Diagnostic
import Pigeon.Value
import Pigeon.Token.Scan
import Pigeon.Grammar.Cursor

/-!
# Failures

Everything that can end an operation of the library, as causes. Each cause has one text.
-/

namespace Pigeon

/-- Why a running program stops. -/
inductive RuntimeCause where
  | divisionByZero
  | moduloByZero
  | stackExhausted
  /-- A line of input is no literal of the type. -/
  | unreadable (expected : Ty) (line : String)
  | unexpectedType (expected actual : Ty)
  | unaryOperand (op : UnOp) (operand : Ty)
  | binaryOperands (op : BinOp) (left right : Ty)
  | nativeArgument (function : String) (expected actual : Ty)
  deriving DecidableEq, Repr

namespace RuntimeCause

/-- The name of a type with its article. -/
def withArticle : Ty → String
  | .int => "an int"
  | t => "a " ++ t.name

/-- The text of the cause. -/
def message : RuntimeCause → String
  | divisionByZero => "[RUN-0010] integer division by zero"
  | moduloByZero => "[RUN-0010] integer modulo by zero"
  | stackExhausted => "[RUN-0020] call stack exhausted (recursion too deep)"
  | unreadable expected line => s!"[RUN-0030] cannot read {withArticle expected} from '{line}'"
  | unexpectedType expected actual =>
    s!"[RUN-0040] expected a value of type '{expected.name}', got '{actual.name}'"
  | unaryOperand op operand =>
    s!"[RUN-0040] operator '{op.symbol}' cannot be applied to '{operand.name}'"
  | binaryOperands op left right =>
    s!"[RUN-0040] operator '{op.symbol}' cannot be applied to '{left.name}' and '{right.name}'"
  | nativeArgument function expected actual =>
    s!"[RUN-0040] native function '{function}' expects '{expected.name}', got '{actual.name}'"

/-- A run-time failure on one line. -/
def report (message : String) (span : Option Span) : String :=
  match span with
  | some s => s!"{s.start.line}:{s.start.column}: runtime error: {message}"
  | none => s!"runtime error: {message}"

end RuntimeCause

/-- A broken invariant of the interpreter. -/
inductive Defect where
  | noTypeRecorded (kind : String)
  | unexpectedTag (e : UnexpectedTag)
  | releasedTwice (handle : Int)
  | releasedScope (handle : Int)
  | exitOfRootBlock
  | noValue (name : String)
  | unexpectedStatement (kind : String)
  | unexpectedExpression (kind : String)
  | unexpectedScopeFailure (message : String)
  | undeclaredFunction (name : String)
  | badCompletion (function completion : String)
  deriving DecidableEq, Repr

/-- The place of a defect. -/
structure Location where
  filename : Option String
  span : Option Span
  deriving DecidableEq, Repr

namespace Defect

/-- The text of the defect. -/
def message : Defect → String
  | noTypeRecorded kind => s!"[ICE-0001] no type recorded for {kind}"
  | unexpectedTag e =>
    s!"[ICE-0010] expected a value of type '{Ty.nameOrNone e.expected}', got '{e.actual.name}'"
  | releasedTwice handle => s!"[ICE-0020] scope {handle} released twice"
  | releasedScope handle => s!"[ICE-0021] use of released scope {handle}"
  | exitOfRootBlock => "[ICE-0022] cannot exit the root block of a function scope"
  | noValue name => s!"[ICE-0023] variable '{name}' has no value"
  | unexpectedStatement kind => s!"[ICE-0030] unexpected statement {kind}"
  | unexpectedExpression kind => s!"[ICE-0031] unexpected expression {kind}"
  | unexpectedScopeFailure message => s!"[ICE-0032] unexpected scope failure: {message}"
  | undeclaredFunction name => s!"[ICE-0040] call to undeclared function '{name}'"
  | badCompletion function completion =>
    s!"[ICE-0041] function '{function}' finished with '{completion}'"

/-- The beginning of every code of a defect. -/
def codeMark : List Char := ['[', 'I', 'C', 'E', '-']

/-- The characters hold a code of a defect. -/
def hasCode : List Char → Bool
  | [] => false
  | c :: cs => codeMark.isPrefixOf (c :: cs) || hasCode cs

/-- A defect on one line. A message without a code gets the general one, and a file without a name
is not mentioned. -/
def report (message : String) (location : Option Location) : String :=
  let message := if hasCode message.toList then message else "[ICE-9999] " ++ message
  let place :=
    match location with
    | some ⟨some "", _⟩ | some ⟨none, _⟩ | none => ""
    | some ⟨some file, some s⟩ => s!"{file}:{s.start.line}:{s.start.column}: "
    | some ⟨some file, none⟩ => s!"{file}: "
  s!"{place}internal interpreter error: {message}"

end Defect

/-- A failed operation on scopes. -/
inductive ScopeError where
  | duplicateGlobal (name : String)
  | duplicate (name : String)
  | unknown (name : String)
  | notAVariable (name : String)
  | readOnly (name : String)
  deriving DecidableEq, Repr

namespace ScopeError

/-- The name that the operation was about. -/
def name : ScopeError → String
  | duplicateGlobal n | duplicate n | unknown n | notAVariable n | readOnly n => n

/-- The kind of diagnostic that the failure gives rise to. -/
def kind : ScopeError → DiagnosticKind
  | duplicateGlobal _ | duplicate _ => .duplicateDeclaration
  | unknown _ => .unknownIdentifier
  | notAVariable _ => .typeMismatch
  | readOnly _ => .immutableAssignment

/-- The text of the error. -/
def message : ScopeError → String
  | duplicateGlobal n => s!"'{n}' is already declared in the global scope"
  | duplicate n => s!"'{n}' is already declared in this scope"
  | unknown n => s!"unknown identifier '{n}'"
  | notAVariable n => s!"'{n}' is a function, not a variable"
  | readOnly n => s!"cannot assign to read-only variable '{n}'"

end ScopeError

/-- A host used the library out of order, or a native broke its promise. -/
inductive UsageError where
  | noProgram
  | hasErrors (count : Nat)
  | hasErrorsUnseen (count : Nat)
  | badResult (function : String) (e : ConversionError)
  deriving DecidableEq, Repr

/-- The text of the error. -/
def UsageError.message : UsageError → String
  | noProgram => "cannot evaluate: no program was parsed"
  | hasErrors count => s!"cannot evaluate a program with {count} error(s)"
  | hasErrorsUnseen count =>
    s!"cannot evaluate a program with {count} error(s); check has_no_errors() first"
  | badResult function e => s!"native function '{function}' returned a bad result: {e.message}"

/-- An argument that no operation can work with. -/
inductive ArgumentError where
  | unknownTypeName (name : String)
  | unknownOperator (e : UnknownOperator)
  | numeral (e : NumeralError)
  | alreadyRegistered (name : String)
  | variableOfType (name : String) (type : Ty)
  | returnsAny (name : String)
  | takesVoid (name : String)
  | nothingToCheck
  deriving DecidableEq, Repr

/-- The text of the error. -/
def ArgumentError.message : ArgumentError → String
  | unknownTypeName name => s!"unknown type name '{name}'"
  | unknownOperator e => e.message
  | numeral e => e.message
  | alreadyRegistered name => s!"native '{name}' is already registered"
  | variableOfType name type => s!"native variable '{name}' cannot have type '{type.name}'"
  | returnsAny name => s!"native function '{name}' cannot return 'any'"
  | takesVoid name => s!"native function '{name}' cannot take a 'void' parameter"
  | nothingToCheck => "SemanticAnalyzer requires a parsed program"

/-- Everything that can end an operation. -/
inductive Failure where
  | lexical (e : LexError) (filename : String)
  | grammar (e : ParseError) (filename : Option String)
  | runtime (cause : RuntimeCause) (span : Option Span)
  | defect (defect : Defect) (location : Option Location)
  | scope (e : ScopeError)
  | usage (e : UsageError)
  | argument (e : ArgumentError)
  | conversion (e : ConversionError)
  /-- No symbol has the name. -/
  | missing (name : String)
  /-- A handle, a block or an argument is out of range. -/
  | outOfRange
  /-- The bound on the depth of a tree was too small. -/
  | tooDeep
  /-- A loop was cut off by the bound on its rounds. -/
  | unfinished
  deriving DecidableEq, Repr

namespace Failure

/-- The text of the failure. -/
def message : Failure → String
  | lexical e _ => e.message
  | grammar e _ => e.message
  | runtime cause _ => cause.message
  | defect d _ => d.message
  | scope e => e.message
  | usage e => e.message
  | argument e => e.message
  | conversion e => e.message
  | missing name => Text.quoted name
  | outOfRange => "list index out of range"
  | tooDeep => "tree too deep"
  | unfinished => "loop bound exceeded"

/-- The one-line report of a failure of a run, for those that have one. -/
def report? : Failure → Option String
  | runtime cause span => some (RuntimeCause.report cause.message span)
  | defect d location => some (Defect.report d.message location)
  | _ => none

/-- A failure to split source text of a file into tokens. -/
def ofScanError (filename : String) : ScanError → Failure
  | .lexical e => .lexical e filename
  | .numeral e => .argument (.numeral e)

/-- A failure to read the tokens of a file. -/
def ofReadError (filename : Option String) : ReadError → Failure
  | .grammar e => .grammar e filename
  | .numeral e => .argument (.numeral e)
  | .tooDeep => .tooDeep

end Failure

end Pigeon
