import Pigeon.Scope.Frame
import Pigeon.Typing.Issue

/-!
# Signatures

All functions of a program are declared in the global scope before anything is checked, so a call
may stand before the declaration of the function. The first declaration of a name counts. Later
ones, and those that clash with a native, are reported and left out.
-/

namespace Pigeon

/-- The type that a name in a tree stands for. -/
def Ty.ofName (name : String) : Except Failure Ty :=
  match Ty.ofName? name with
  | some t => .ok t
  | none => .error (.argument (.unknownTypeName name))

/-- The parameters of a declaration with their types. -/
def Param.parameters (params : List Param) : Except Failure (List Parameter) :=
  params.mapM fun p => return ⟨p.name, ← Ty.ofName p.typeName⟩

/-- The function that a declaration describes. -/
def FuncDecl.toFunction (d : FuncDecl) : Except Failure Function := do
  let params ← Param.parameters d.params
  let returns ← Ty.ofName d.returnType
  return ⟨d.name, returns, params, .declared d.body⟩

/-- The result of declaring functions: the failure that ended it, if there was one, and what was
reported and declared before. -/
structure Predeclared where
  result : Except Failure Unit
  diagnostics : List Diagnostic
  arena : Arena

/-- Reports about the parameters of one declaration, in order: those whose name has occurred among
`seen` or further left, and those of type `void`. -/
def FuncDecl.paramIssues (filename : Option String) (function : String) (seen : List String) :
    List Param → Except Failure Unit × List Diagnostic
  | [] => (.ok (), [])
  | p :: ps =>
    let duplicate :=
      if seen.contains p.name then
        [(Issue.duplicateParam p.name function).diagnostic filename p.span]
      else []
    match Ty.ofName p.typeName with
    | .error e => (.error e, duplicate)
    | .ok t =>
      let void :=
        if t = .void then [(Issue.voidParam p.name function).diagnostic filename p.span] else []
      let (result, more) := paramIssues filename function (p.name :: seen) ps
      (result, duplicate ++ void ++ more)

/-- Declares one function. -/
def FuncDecl.predeclare (d : FuncDecl) (filename : Option String) (g : Handle) (a : Arena) :
    Predeclared :=
  match paramIssues filename d.name [] d.params with
  | (.error e, issues) => ⟨.error e, issues, a⟩
  | (.ok (), issues) =>
    match d.toFunction with
    | .error e => ⟨.error e, issues, a⟩
    | .ok f =>
      match a.declareGlobal g (.func f) with
      | .ok a => ⟨.ok (), issues, a⟩
      | .error (.scope (.duplicateGlobal _)) =>
        match a.globalFunction? g d.name with
        | .error e => ⟨.error e, issues, a⟩
        | .ok existing =>
          let withFunction := existing.any (!·.isNative)
          let clash := (Issue.functionClash d.name withFunction).diagnostic filename d.span
          ⟨.ok (), issues ++ [clash], a⟩
      | .error e => ⟨.error e, issues, a⟩

/-- Declares functions up to the first one that fails. -/
def FuncDecl.predeclareAll (filename : Option String) (g : Handle) :
    List FuncDecl → Arena → Predeclared
  | [], a => ⟨.ok (), [], a⟩
  | d :: ds, a =>
    let first := d.predeclare filename g a
    match first.result with
    | .error _ => first
    | .ok () =>
      let rest := predeclareAll filename g ds first.arena
      ⟨rest.result, first.diagnostics ++ rest.diagnostics, rest.arena⟩

end Pigeon
