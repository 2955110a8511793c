import Pigeon.Proofs.Execution.Lockstep
import Pigeon.Proofs.Session.Evaluated

/-!
# Scopes are balanced

At every moment of an evaluation, whatever the machine does next, a statement, a block or an
expression leaves the frames and their blocks as it found them: on `break`, `continue` and `return`,
and on every failure. So after an evaluation no frame is open, and the global scope alone is alive.

A machine that stands in a context is like itself, so this is one half of what `Run.Lockstep` says.
-/

namespace Pigeon

open Blocks

variable {w : Setting} {m : Machine} {Γ : Context} {G : Symbols} {f : Blocks} {F : List Blocks}

/-- Whatever is executed or evaluated from the machine on, a call included, and whichever way that
ends, the machine has its frames back at the end, each with the same blocks. The limits are those of
any place of the program: the number of calls that may still be opened. -/
structure Program.Balanced (p : Program) (m : Machine) : Prop where
  exec : ∀ limits s, m.SameFrames (Run.exec (p.runSite limits) s m).2
  block : ∀ limits b, m.SameFrames (Run.inBlock (Run.execBody (p.runSite limits) b) m).2
  body : ∀ limits b, m.SameFrames (Run.execBody (p.runSite limits) b m).2
  eval : ∀ limits e, m.SameFrames (Run.eval (p.runSite limits) e m).2

/-- Every callback respects equality. -/
theorem Callback.respects_eq (c : Callback) : c.Respects Eq := by
  rintro args host _ rfl
  exact ⟨rfl, rfl⟩

/-- The functions of a program that follows the rules are regular, if the native ones respect the
relation. -/
theorem Setting.Serves.regular {R : Host → Host → Prop} (h : w.Serves G)
    (hR : ∀ n ∈ w.natives.funcs, n.callback.Respects R) : Environment.Regular R G.find? := by
  intro name fn hfn
  have hname := h name
  rw [hfn] at hname
  generalize w.globals name = x at hname
  cases hname with
  | func hcallable =>
      rcases hcallable with ⟨n, hn, rfl⟩ | ⟨d, -, W⟩
      · refine ⟨fun _ hbody => ?_, fun c hc => ?_⟩
        · cases hbody
        · cases hc
          exact hR n hn
      · refine ⟨fun _ _ => W.params_nodup, fun c hc => ?_⟩
        rw [(FuncDecl.toFunction_ok W.function).2.2] at hc
        cases hc

/-- Where the machine stands, its arena holds its frames and nothing else. -/
theorem Setting.Stands.lies (S : w.Stands m Γ G f F) : m.scopes.Lies G (f :: F) := by
  refine ⟨?_, ?_⟩
  · rw [show m.scopes.globals = w.root from S.globals]
    exact S.holds
  · rw [show m.scopes.globals = w.root from S.globals]
    exact S.frames

/-- A step that runs in lockstep gives the machine its frames back. -/
theorem Setting.Stands.sameFrames {α : Type} {x : Run α} (S : w.Stands m Γ G f F) (hΓ : Γ ≠ [])
    (hx : Run.Lockstep Eq G.find? 1 x) : m.SameFrames (x m).2 := by
  have L := S.lies
  have A : m.Alike Eq G.find? m := ⟨⟨_, L.shows, L.shows, .refl _⟩, rfl⟩
  have hdepth : 1 ≤ m.depth := by
    unfold Machine.depth
    rw [S.frames]
    exact List.length_pos_iff.mpr (mt List.map_eq_nil_iff.mp (Run.ne_nil_of_fits S.fits hΓ))
  obtain ⟨r, t, t', heq, -, -, hsame, -⟩ := hx A hdepth
  rw [heq]
  exact hsame

/-- Where the machine stands in a context, the program is balanced. -/
theorem Setting.Stands.balanced (S : w.Stands m Γ G f F) (hΓ : Γ ≠ []) :
    w.program.Balanced m := by
  have hregular := S.serves.regular fun n _ => n.callback.respects_eq
  have hcall := w.program.runSite_lockstep hregular
  constructor
  · intro limits s
    exact S.sameFrames hΓ (Run.exec_lockstep hregular (hcall limits) s)
  · intro limits b
    exact S.sameFrames hΓ (Run.inBlock_lockstep hregular (hcall limits) b)
  · intro limits b
    exact S.sameFrames hΓ (Run.execBody_lockstep hregular (hcall limits) b)
  · intro limits e
    exact S.sameFrames hΓ (Run.eval_lockstep hregular (hcall limits) e)

/-- A run leaves a machine without frames, and with the global scope as the only one alive. -/
theorem Program.steps_closed {R : Host → Host → Prop} {base : Environment}
    (hregular : base.Regular R) (A : m.Alike R base m) (hm : m.frames = []) (p : Program)
    (limits : Limits) :
    (p.steps limits m).2.frames = [] ∧ (p.steps limits m).2.arena.liveCount = 1 := by
  obtain ⟨r, t, t', heq, -, B, hsame, -⟩ := p.steps_lockstep hregular limits A (Nat.zero_le _)
  rw [heq]
  have ht : t.frames = [] := hsame.frames.trans hm
  obtain ⟨n, S, -, -⟩ := B.shows
  obtain ⟨G, H, -⟩ := S.exists_holds ht
  exact ⟨ht, H.liveCount_eq⟩

/-! ## Every evaluation -/

namespace Session

/-- The machine with which an evaluation of the session begins. -/
def machine (s : Session) : Machine := ⟨(reset s).2.arena, s.globals, [], s.host⟩

variable {natives : Natives} {source : String} {filename : Option String} {host : Host}
  {context : Option LogContext} {time : String} {s t : Session}

/-- Let a program be loaded without diagnostics. At every moment of every evaluation it is balanced;
and however the evaluation ends, no frame is open then, and one scope is alive. -/
theorem evaluation_balanced (hn : natives.Registered)
    (hload : load source filename (start natives host context time) = (.ok (), s))
    (hd : s.diagnostics = []) (hs : s.Continues t) (name : Option String) (limits : Limits) :
    ∃ p, t.program = some p ∧ (∀ ev ∈ t.evaluation limits, p.Balanced ev.machine) ∧
      ∃ r u m, evaluate name limits t = (r, u) ∧ p.steps limits t.machine = (r, m) ∧
        u.arena = m.arena ∧ m.frames = [] ∧ u.arena.liveCount = 1 := by
  obtain ⟨p, s₀, -, -, hw, R⟩ := ready_of_load hn hload hd hs
  have hgood := R.good hw limits
  refine ⟨p, R.program_eq, fun ev hev => ?_, ?_⟩
  · obtain ⟨Γ, G, f, F, hΓ, S, -⟩ := hgood ev hev
    exact S.balanced hΓ
  · obtain ⟨a, hreset, G, H, hserves, -⟩ := R.reset hw
    obtain ⟨j, hevaluate⟩ :=
      evaluate_takes R.program_eq R.diagnostics_eq hreset name limits t.journal
    obtain ⟨j', hreset'⟩ := reset_takes hreset t.journal
    have hmachine : t.machine = ⟨a, t.globals, [], t.host⟩ := by
      unfold machine
      rw [show reset t = _ from hreset']
    -- the reset leaves one live scope, with the globals, and no frames
    have L' : t.machine.scopes.Lies G [] := by
      rw [hmachine, R.globals_eq]
      exact ⟨H, rfl⟩
    have hregular := hserves.regular fun n _ => n.callback.respects_eq
    obtain ⟨hframes, hlive⟩ := p.steps_closed hregular
      ⟨⟨_, L'.shows, L'.shows, .refl _⟩, rfl⟩ rfl limits
    rw [Program.run_eq_steps, ← hmachine] at hevaluate
    exact ⟨_, _, _, hevaluate, rfl, rfl, hframes, hlive⟩

/-- A program that returns from the midst of a loop, and in the third call fails there. -/
def leavingSource : String :=
  "int f(int n) \x7b for i = 0 to 2 if i == n return 6 / n; return 0; \x7d " ++
    "for k = 0 to 2 print(f(2 - k));"

/-- Its evaluation is balanced at every one of the events that there are, and although it fails
inside two loops and a call, one scope is alive afterwards. -/
theorem evaluation_balanced_leaving :
    ∃ s p, load leavingSource none (start Console.natives {} none "") = (.ok (), s) ∧
      s.diagnostics = [] ∧ s.program = some p ∧ s.evaluation ⟨2, 4⟩ ≠ [] ∧
      (∀ ev ∈ s.evaluation ⟨2, 4⟩, p.Balanced ev.machine) ∧
      (evaluate none ⟨2, 4⟩ s).1.isOk = false ∧ (evaluate none ⟨2, 4⟩ s).2.arena.liveCount = 1 := by
  obtain ⟨s, hload, hd, hevents, hfails⟩ : ∃ s,
      load leavingSource none (start Console.natives {} none "") = (.ok (), s) ∧
      s.diagnostics = [] ∧ (s.evaluation ⟨2, 4⟩).isEmpty = false ∧
      (evaluate none ⟨2, 4⟩ s).1.isOk = false := exists_of_quiet_and (by decide +kernel)
  obtain ⟨p, hp, hbalanced, r, u, m, hevaluate, -, -, -, hlive⟩ := evaluation_balanced
    Console.natives_registered hload hd .refl none ⟨2, 4⟩
  refine ⟨s, p, hload, hd, hp, List.isEmpty_eq_false_iff.mp hevents, hbalanced, hfails, ?_⟩
  rw [hevaluate]
  exact hlive

end Session

end Pigeon
