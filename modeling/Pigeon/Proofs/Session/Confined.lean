import Pigeon.Proofs.Execution.Confined
import Pigeon.Proofs.Session.Balanced
import Pigeon.Proofs.Session.Independent

/-!
# Expressions cannot touch locals

Let a program be loaded without diagnostics. At every moment of every evaluation, the evaluation of
an expression, with all the calls inside it, leaves every variable of every block of every open
frame as it is, whether it ends with a value or fails. The global scope keeps its symbols, and the
only thing that can differ are the values of native variables that are not read-only.
-/

namespace Pigeon

open Blocks

/-- The name is that of a native variable that is not read-only. -/
def Natives.Writable (natives : Natives) (name : String) : Prop :=
  ∃ v ∈ natives.vars, v.name = name ∧ v.readOnly = false

/-- From the machine `m` to the machine `t` no frame and no block was opened or closed, every block
shows the same symbols, and so does the global scope, except that native variables that are not
read-only may have other values. -/
structure Machine.Confines (natives : Natives) (m t : Machine) : Prop where
  frames : m.SameFrames t
  symbols : ∃ n n', m.Shows n ∧ t.Shows n' ∧ n'.frames = n.frames ∧
    n'.globals.Rewrites n.globals ∧
    ∀ name, n'.globals name ≠ n.globals name → natives.Writable name

/-- A variable among the globals of a program is a native one. -/
theorem Program.writable_of_globals {p : Program} {natives : Natives} {name : String} {t : Ty}
    (h : p.globals natives name = some (.var t false)) : natives.Writable name := by
  have hmem := mem_of_lookup h
  rw [Natives.entities, List.mem_append, List.mem_append] at hmem
  rcases hmem with (hvar | hfunc) | hdecl
  · obtain ⟨v, hv, heq⟩ := List.mem_map.mp hvar
    obtain ⟨hname, hentity⟩ := Prod.mk.inj heq
    exact ⟨v, hv, hname, (Entity.var.inj hentity).2⟩
  · obtain ⟨f, -, heq⟩ := List.mem_map.mp hfunc
    cases heq
  · obtain ⟨d, -, heq⟩ := List.mem_filterMap.mp hdecl
    unfold FuncDecl.entity? at heq
    split at heq <;> cases heq

variable {w : Setting} {m : Machine} {Γ : Context} {G : Symbols} {f : Blocks} {F : List Blocks}

/-- Where the machine stands in a context, expressions are confined. -/
theorem Setting.Stands.confines (S : w.Stands m Γ G f F) (hΓ : Γ ≠ []) (limits : Limits)
    (e : Expr) : m.Confines w.natives (Run.eval (w.program.runSite limits) e m).2 := by
  have hregular := S.serves.regular fun n _ => n.callback.respects_eq
  obtain ⟨n', T, hrewrites, hframes⟩ := w.program.eval_retains hregular limits e
    ⟨_, S.lies.shows, .refl _, rfl⟩
  refine ⟨(S.balanced hΓ).eval limits e, _, n', S.lies.shows, T, hframes, hrewrites, ?_⟩
  intro name hne
  obtain ⟨v, value, hv, hro, -⟩ := (hrewrites name).resolve_left hne
  -- the globals of the program say what the symbols of the global scope are
  have hname := S.serves name
  rw [show Symbols.find? G name = some (.var v) from hv] at hname
  generalize hglobal : w.globals name = x at hname
  cases hname with
  | var _ =>
      obtain rfl : _ = false := hro
      exact Program.writable_of_globals hglobal

namespace Session

variable {natives : Natives} {source : String} {filename : Option String} {host : Host}
  {context : Option LogContext} {time : String} {s t : Session}

/-- Let a program be loaded without diagnostics. At every moment of every evaluation, the evaluation
of any expression is confined to the values of native variables that are not read-only, however it
ends. -/
theorem evaluation_confined (hn : natives.Registered)
    (hload : load source filename (start natives host context time) = (.ok (), s))
    (hd : s.diagnostics = []) (hs : s.Continues t) (limits : Limits) :
    ∃ p, t.program = some p ∧ ∀ ev ∈ t.evaluation limits, ∀ limits' e,
      ev.machine.Confines natives (Run.eval (p.runSite limits') e ev.machine).2 := by
  obtain ⟨p, s₀, -, -, hw, R⟩ := ready_of_load hn hload hd hs
  have hgood := R.good hw limits
  refine ⟨p, R.program_eq, fun ev hev limits' e => ?_⟩
  obtain ⟨Γ, G, f, F, hΓ, S, -⟩ := hgood ev hev
  exact S.confines hΓ limits' e

/-- A program that calls a function from an expression. The function calls itself, changes a native
variable and one of its own that has the name of a variable outside, and fails in the last call. -/
def nestingSource : String :=
  "int f(int n) \x7b let x = n; x += 1; tally += x; if n > 0 return f(n - 1); return 6 / n; \x7d" ++
    " let x = 40; print(x + f(2));"

/-- Its evaluation fails with four frames open. The same call at that moment fails as well, and has
changed the native variable; all other variables are as before. -/
theorem evaluation_confined_nesting :
    let tally (m : Machine) := (Run.lookup "tally" m).1.toOption.map Value.text
    ∃ s p ev, load nestingSource none (start tallyNatives {} none "") = (.ok (), s) ∧
      s.diagnostics = [] ∧ s.program = some p ∧ ev ∈ s.evaluation ⟨8, 8⟩ ∧
      let r := Run.eval (p.runSite ⟨8, 8⟩) (.call "f" [.int 2 none] none) ev.machine
      (ev.machine.frames.length, r.1.isOk, tally ev.machine, tally r.2) =
          (4, false, some "6", some "12") ∧
        ev.machine.Confines tallyNatives r.2 := by
  intro tally
  obtain ⟨s, hload, hd, hlast⟩ : ∃ s,
      load nestingSource none (start tallyNatives {} none "") = (.ok (), s) ∧
      s.diagnostics = [] ∧ (s.program.bind fun p => (s.evaluation ⟨8, 8⟩).getLast?.map fun ev =>
        let r := Run.eval (p.runSite ⟨8, 8⟩) (.call "f" [.int 2 none] none) ev.machine
        (ev.machine.frames.length, r.1.isOk, tally ev.machine, tally r.2)) =
      some (4, false, some "6", some "12") := exists_of_quiet_and (by decide +kernel)
  obtain ⟨p, hp, hlast⟩ := Option.bind_eq_some_iff.mp hlast
  obtain ⟨ev, hev, hfacts⟩ := Option.map_eq_some_iff.mp hlast
  obtain ⟨p', hp', hconfined⟩ := evaluation_confined tallyNatives_registered hload hd .refl ⟨8, 8⟩
  obtain rfl : p = p' := Option.some.inj (hp.symm.trans hp')
  have hmem := List.mem_of_getLast? hev
  exact ⟨s, p, ev, hload, hd, hp, hmem, hfacts,
    hconfined ev hmem ⟨8, 8⟩ (.call "f" [.int 2 none] none)⟩

end Session

end Pigeon
