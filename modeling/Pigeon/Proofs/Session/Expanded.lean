import Pigeon.Proofs.Execution.Expanded
import Pigeon.Proofs.Session.Balanced
import Pigeon.Proofs.Session.Independent

/-!
# Updates are short for their expansions

The checker accepts an update `x op= e` exactly if it accepts `x = x op (e)`. Let a program be loaded
without diagnostics, and let `x` be a variable of the current frame at some moment of an evaluation.
Then the two statements do the same there, whatever `e` does: they leave the same machine, with the
same output, and end in the same way.
-/

namespace Pigeon

open Blocks

variable {w : Setting} {m : Machine} {Γ : Context} {G : Symbols} {f : Blocks} {F : List Blocks}

/-- A variable of the current frame is one of the blocks of the frame. -/
theorem Setting.Stands.exists_block (S : w.Stands m Γ G f F) (hΓ : Γ ≠ []) {name : String}
    (h : m.FindsLocal name) : ∃ b ∈ f, b.2.contains name = true := by
  obtain ⟨frame, i, hframe, hplace⟩ := h
  obtain rfl : (⟨w.root, handles f⟩ : Frame) = frame := by
    rw [S.frames] at hframe
    exact Option.some.inj hframe
  have hplace' := hplace
  obtain ⟨⟨k, v⟩, hlocate, -⟩ := exists_of_bind_eq_ok hplace'
  rw [Frame.place_eq rfl (Run.ne_nil_of_fits S.fits hΓ) S.holds hlocate] at hplace
  unfold Blocks.place at hplace
  split at hplace
  · next j hj =>
      obtain ⟨hlt, hcontains, -⟩ := List.findIdx?_eq_some_iff_getElem.mp hj
      exact ⟨f[j], List.getElem_mem hlt, hcontains⟩
  · cases hplace

/-- A variable of the current frame has a value, and still has it after an expression was
evaluated. -/
theorem Setting.Stands.lookup_local (S : w.Stands m Γ G f F) (hΓ : Γ ≠ []) {name : String}
    (h : m.FindsLocal name) :
    ∃ value, Run.lookup name m = (.ok value, m) ∧ ∀ limits e,
      Run.lookup name (Run.eval (w.program.runSite limits) e m).2 =
        (.ok value, (Run.eval (w.program.runSite limits) e m).2) := by
  obtain ⟨b, hb, hname⟩ := S.exists_block hΓ h
  obtain ⟨v, hv⟩ := S.fits.exists_find? hb hname
  have hresolve : Context.resolve w.globals Γ name = some (v.ty, v.readOnly) := by
    rw [Context.resolve, hv]
  obtain ⟨value, hvalue, -⟩ := Run.lookup_eq S hΓ hresolve
  refine ⟨value, hvalue, fun limits e => ?_⟩
  -- an evaluation keeps all blocks of the frames
  have hregular := S.serves.regular fun n _ => n.callback.respects_eq
  obtain ⟨⟨g', frames⟩, T, -, hframes⟩ := w.program.eval_retains hregular limits e
    ⟨_, S.lies.shows, .refl _, rfl⟩
  obtain rfl : frames = (f :: F).map environments := hframes
  refine S.lies.shows.lookup_congr T ⟨Symbols.find? b.2, List.mem_map_of_mem hb, ?_⟩ hvalue
  obtain ⟨s, hs⟩ := (Symbols.contains_iff b.2 name).mp hname
  rw [hs]
  exact Option.some_ne_none s

namespace Session

/-- The checker accepts an update exactly if it accepts its expansion. At every moment of every
evaluation of a program that was loaded without diagnostics, an update of a variable of the current
frame and its expansion leave the same machine, and end in the same way up to the place of a failure.
The limits are those of any place of the program. -/
theorem updates_expand :
    (∀ csite c name st st', Stmt.Expands name st st' →
      ((Check.checkStmt csite st).Accepts c ↔ (Check.checkStmt csite st').Accepts c)) ∧
    ∀ (natives : Natives) source filename host context time s t, natives.Registered →
      load source filename (start natives host context time) = (.ok (), s) → s.diagnostics = [] →
      s.Continues t → ∀ limits, ∃ p, t.program = some p ∧
        ∀ ev ∈ t.evaluation limits, ∀ name, ev.machine.FindsLocal name →
          ∀ limits' st st', Stmt.Expands name st st' →
            let r := Run.exec (p.runSite limits') st ev.machine
            let r' := Run.exec (p.runSite limits') st' ev.machine
            r.2 = r'.2 ∧ r.1.mapError Failure.bare = r'.1.mapError Failure.bare := by
  refine ⟨fun _ _ _ _ _ h => Check.accepts_iff_of_expands h, ?_⟩
  intro natives source filename host context time s t hn hload hd hs limits
  obtain ⟨p, s₀, -, -, hw, R⟩ := ready_of_load hn hload hd hs
  have hgood := R.good hw limits
  refine ⟨p, R.program_eq, ?_⟩
  intro ev hev name hlocal limits' st st' hexpands
  obtain ⟨Γ, G, f, F, hΓ, S, -⟩ := hgood ev hev
  obtain ⟨value, hbefore, hafter⟩ := S.lookup_local hΓ hlocal
  have hends := Run.exec_expands p limits' hexpands (hafter limits') hbefore
  dsimp only
  generalize Run.exec (p.runSite limits') st ev.machine = r,
    Run.exec (p.runSite limits') st' ev.machine = r' at hends ⊢
  cases hends with
  | ok hc hm => exact ⟨hm, congrArg Except.ok hc⟩
  | error he hm => exact ⟨hm, congrArg Except.error he⟩

/-- A program that subtracts the result of a call from a variable. The function has a variable of the
same name, and changes a native one. -/
def subtractingSource : String :=
  "int f(int n) \x7b let x = n; x += 1; tally += x; return x; \x7d let x = 40; x -= f(2); print(x);"

/-- What is found at a moment that begins a subtraction from a variable: whether the variable is one
of the current frame, how the subtraction ends, and the values of two variables afterwards. -/
def subtractionFacts (p : Program) (m : Machine) : Moment → Option (Bool × Bool × List String)
  | .enter (.stmt (.assign name (.update .sub) e sp)) =>
    let r := Run.exec (p.runSite ⟨8, 8⟩) (.assign name (.update .sub) e sp) m
    some (m.FindsLocal name, r.1.isOk,
      ["x", "tally"].filterMap fun name => (Run.lookup name r.2).1.toOption.map Value.text)
  | _ => none

/-- The subtraction and its expansion leave the same machine, with the variable at 37 and the native
one at 3. The checker accepts the expansion of a subtraction from an integer. -/
theorem updates_expand_subtracting :
    (∃ s p ev name e sp, load subtractingSource none (start tallyNatives {} none "") = (.ok (), s) ∧
      s.diagnostics = [] ∧ s.program = some p ∧ ev ∈ s.evaluation ⟨8, 8⟩ ∧
      ev.moment = .enter (.stmt (.assign name (.update .sub) e sp)) ∧
      let r := Run.exec (p.runSite ⟨8, 8⟩) (.assign name (.update .sub) e sp) ev.machine
      let r' := Run.exec (p.runSite ⟨8, 8⟩)
        (.assign name .set (.binary .sub (.var name none) (.paren e none) none) none) ev.machine
      r.1.isOk = true ∧ (["x", "tally"].filterMap fun name =>
        (Run.lookup name r.2).1.toOption.map Value.text) = ["37", "3"] ∧ r.2 = r'.2 ∧
        r.1.mapError Failure.bare = r'.1.mapError Failure.bare) ∧
    let c : Checker := ⟨{ slots := #[some ⟨none, []⟩, some ⟨some 0,
      [("x", .var { name := "x", ty := some .int })]⟩] }, ⟨0, [1]⟩, [], #[]⟩
    (Check.checkStmt { filename := none, globals := 0 } (.assign "x" .set
      (.binary .sub (.var "x" none) (.paren (.int 2 none) none) none) none)).Accepts c := by
  refine ⟨?_, ?_⟩
  · obtain ⟨s, hload, hd, hfacts⟩ : ∃ s,
        load subtractingSource none (start tallyNatives {} none "") = (.ok (), s) ∧
        s.diagnostics = [] ∧ (s.program.bind fun p => (s.evaluation ⟨8, 8⟩).findSome? fun ev =>
          subtractionFacts p ev.machine ev.moment) = some (true, true, ["37", "3"]) :=
      exists_of_quiet_and (by decide +kernel)
    obtain ⟨p, hp, hfacts⟩ := Option.bind_eq_some_iff.mp hfacts
    obtain ⟨ev, hmem, hfacts⟩ := List.exists_of_findSome?_eq_some hfacts
    obtain ⟨p', hp', hexpand⟩ := updates_expand.2 tallyNatives subtractingSource none {} none ""
      s s tallyNatives_registered hload hd .refl ⟨8, 8⟩
    obtain rfl : p = p' := Option.some.inj (hp.symm.trans hp')
    unfold subtractionFacts at hfacts
    split at hfacts
    · next name e sp hmoment =>
        obtain ⟨hlocal, hfacts⟩ := Prod.mk.inj (Option.some.inj hfacts)
        obtain ⟨hok, hvalues⟩ := Prod.mk.inj hfacts
        exact ⟨s, p, ev, name, e, sp, hload, hd, hp, hmem, hmoment, hok, hvalues,
          hexpand ev hmem name (of_decide_eq_true hlocal) ⟨8, 8⟩ _ _ (.update (by decide) rfl)⟩
    · cases hfacts
  · exact (updates_expand.1 _ _ "x" (.assign "x" (.update .sub) (.int 2 none) none) _
      (.update (by decide) rfl)).mp (by decide +kernel)

end Session

end Pigeon
