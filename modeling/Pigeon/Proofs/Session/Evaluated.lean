import Pigeon.Proofs.Execution.Call
import Pigeon.Proofs.Session.Loaded

/-!
# Evaluations of a loaded program

A loaded program can be evaluated any number of times. Each evaluation gives the native variables
their first values again and then runs the program. `Setting.Ready w s` says that the session `s`
can evaluate the program of the setting `w`; it holds after loading (`Session.Loaded.ready`), and
every evaluation keeps it, whether it fails or not (`Setting.Ready.evaluate`).

The main result of this module is that the evaluation of a program without diagnostics ends normally
or fails at run time, unless it is cut off.
-/

namespace Pigeon

variable {w : Setting} {a : Arena} {G : Symbols}

/-! ## The global symbols of a loaded program -/

/-- The global symbols of a program are native variables, native functions and the functions of the
program. -/
theorem Program.mem_globalSymbols {natives : Natives} {fs : List Function} {x : String × Symbol}
    (h : x ∈ Program.globalSymbols natives fs) :
    (∃ v ∈ natives.vars, x = (v.name, v.symbol)) ∨ (∃ f ∈ natives.funcs, x = (f.name, f.symbol)) ∨
      ∃ f ∈ fs, x = (f.name, .func f) := by
  unfold Program.globalSymbols Symbol.named Natives.symbols at h
  simp only [List.map_append, List.map_map, List.mem_append, List.mem_map] at h
  rcases h with (⟨v, hv, rfl⟩ | ⟨f, hf, rfl⟩) | ⟨f, hf, rfl⟩
  · exact .inl ⟨v, hv, rfl⟩
  · exact .inr (.inl ⟨f, hf, rfl⟩)
  · exact .inr (.inr ⟨f, hf, rfl⟩)

/-- Every global variable of a loaded program has a value of its type. -/
theorem Program.tagged_globalSymbols {natives : Natives} (hn : natives.Registered)
    (fs : List Function) : Symbols.Tagged (Program.globalSymbols natives fs) := by
  intro x hx v hv
  rcases Program.mem_globalSymbols hx with ⟨n, hmem, rfl⟩ | ⟨f, -, rfl⟩ | ⟨f, -, rfl⟩
  · obtain ⟨value, -, hty, hsymbol⟩ := (hn.vars_fit n hmem).first
    rw [hsymbol] at hv
    cases hv
    exact ⟨value, rfl, congrArg some hty.symm⟩
  · cases hv
  · cases hv

/-- The functions that describe the declarations of a typed program can be called. -/
theorem Setting.callable_of_describe (W : w.program.WellTyped w.natives) {fs : List Function}
    (hfs : FuncDecl.Describe w.program.functions fs) {f : Function} (hf : f ∈ fs) :
    w.Callable f := by
  obtain ⟨d, hd, hdf⟩ : ∃ d ∈ w.program.functions, d.toFunction = .ok f := by
    obtain ⟨i, hi, rfl⟩ := List.mem_iff_getElem.mp hf
    have hlen := hfs.length_eq
    exact ⟨_, List.getElem_mem (hlen ▸ hi), (hfs.get (hlen ▸ hi) hi).1⟩
  obtain ⟨f', Wf⟩ := W.functions d hd
  obtain rfl : f' = f := Except.ok.inj (Wf.function.symm.trans hdf)
  exact .inr ⟨d, hd, Wf⟩

/-- The global symbols of a loaded program are what its globals say. -/
theorem Setting.serves_globalSymbols (hn : w.natives.Registered)
    (W : w.program.WellTyped w.natives) {fs : List Function}
    (hfs : FuncDecl.Describe w.program.functions fs) :
    w.Serves (Program.globalSymbols w.natives fs) := by
  intro name
  have M : (Symbols.find? (Program.globalSymbols w.natives fs) name).map Symbol.entity? =
    (w.globals name).map some := Program.means_globals hfs name
  cases hfind : Symbols.find? (Program.globalSymbols w.natives fs) name with
  | none =>
      rw [hfind, Option.map_none, eq_comm, Option.map_eq_none_iff] at M
      rw [M]
      exact .none
  | some s =>
      have hmem := Symbols.mem_of_find? hfind
      rw [hfind, Option.map_some] at M
      cases hglobal : w.globals name with
      | none =>
          rw [hglobal] at M
          cases M
      | some x =>
          rw [hglobal, Option.map_some, Option.some_inj] at M
          -- a native variable, a native function or a function of the program
          rcases Program.mem_globalSymbols hmem with ⟨n, hn', heq⟩ | ⟨f, hf, heq⟩ | ⟨f, hf, heq⟩
          · cases heq
            cases M
            obtain ⟨value, -, hty, hsymbol⟩ := (hn.vars_fit n hn').first
            rw [hsymbol]
            exact .var fun _ => ⟨rfl, hty⟩
          · cases heq
            cases M
            exact .func (.inl ⟨f, hf, rfl⟩)
          · cases heq
            cases M
            exact .func (Setting.callable_of_describe W hfs hf)

/-! ## First values -/

/-- What is found under the name of a member of a list with distinct names. -/
theorem lookup_of_mem {α β : Type} {key : α → String} {value : α → β} {l : List α}
    (hnodup : (l.map key).Nodup) {x : α} (hx : x ∈ l) :
    (l.map fun y => (key y, value y)).lookup (key x) = some (value x) := by
  induction l with
  | nil => cases hx
  | cons y l ih =>
      rw [List.map_cons, List.nodup_cons] at hnodup
      rw [List.map_cons, List.lookup_cons]
      rw [List.mem_cons] at hx
      rcases hx with rfl | hx
      · simp
      · have hne : key x ≠ key y := fun h => hnodup.1 (h ▸ List.mem_map_of_mem hx)
        rw [beq_eq_false_iff_ne.mpr hne]
        exact ih hnodup.2 hx

/-- A native variable is among the globals of every program. -/
theorem Natives.Registered.globals_var {natives : Natives} (hn : natives.Registered) (p : Program)
    {v : NativeVariable} (hv : v ∈ natives.vars) :
    p.globals natives v.name = some (.var v.ty v.readOnly) := by
  have hnodup := hn.names_nodup
  unfold Natives.names at hnodup
  have hfind : (natives.vars.map fun v => (v.name, Entity.var v.ty v.readOnly)).lookup v.name =
      some (.var v.ty v.readOnly) := lookup_of_mem hnodup.of_append_left hv
  unfold Program.globals Natives.entities
  rw [List.lookup_append, List.lookup_append, hfind]
  rfl

/-- The arena has no frames, and its global symbols are what the globals say. -/
def Setting.Clear (w : Setting) (a : Arena) : Prop :=
  ∃ G, a.Holds w.root G [] ∧ w.Serves G ∧ (w.strict = true → Symbols.Tagged G)

/-- A native variable can be given its first value again. -/
theorem Setting.Clear.resetVariable (C : w.Clear a) {v : NativeVariable} (hfits : v.Fits)
    (hglobal : w.globals v.name = some (.var v.ty v.readOnly)) :
    ∃ a', Natives.resetVariable w.root v a = .ok a' ∧ w.Clear a' := by
  obtain ⟨G, H, hserves, htagged⟩ := C
  obtain ⟨n, u, old, hfind, htags, hstore⟩ := hserves.find?_var hglobal
  obtain ⟨value, hvalue, hty, -⟩ := hfits.first
  refine ⟨_, ?_, _, H.store_global v.name (.var ⟨n, u, v.readOnly, some value⟩),
    hstore value fun _ => hty, fun hs => ?_⟩
  · unfold Natives.resetVariable Arena.put
    rw [hvalue, H.global? v.name, hfind]
    show (a.get w.root >>= _) = _
    rw [Arena.get_eq_ok H.root]
    rfl
  · refine (htagged hs).insert v.name rfl ?_
    rw [hty]
    exact (htags hs).1

/-- All native variables can be given their first values again. -/
theorem Setting.Clear.resetAll (vars : List NativeVariable) (C : w.Clear a)
    (hfits : ∀ v ∈ vars, v.Fits)
    (hglobals : ∀ v ∈ vars, w.globals v.name = some (.var v.ty v.readOnly)) :
    ∃ a', Natives.resetAll w.root vars a = (.ok (), a') ∧ w.Clear a' := by
  induction vars generalizing a with
  | nil => exact ⟨a, rfl, C⟩
  | cons v vars ih =>
      rw [List.forall_mem_cons] at hfits hglobals
      obtain ⟨a₁, hfirst, C₁⟩ := C.resetVariable hfits.1 hglobals.1
      obtain ⟨a₂, hrest, C₂⟩ := ih C₁ hfits.2 hglobals.2
      refine ⟨a₂, ?_, C₂⟩
      rw [Natives.resetAll, Natives.changeAll, hfirst]
      exact hrest

/-! ## Evaluations -/

namespace Session

variable {s t : Session} {p : Program}

theorem reset_takes (h : s.natives.reset s.globals s.arena = (.ok (), a)) :
    Takes reset s (.ok ()) { s with arena := a } := by
  refine .get fun j => ?_
  simp only [h]
  exact .bind (.set { s with arena := a, journal := j }) (.ofExcept (.ok ()))

/-- A program without diagnostics is run. -/
theorem run_takes (hp : s.program = some p) (hd : s.diagnostics = []) (limits : Limits) :
    Takes (run limits) s (p.run limits s.globals s.arena s.host).1
      { s with
        arena := (p.run limits s.globals s.arena s.host).2.1
        host := (p.run limits s.globals s.arena s.host).2.2 } := by
  refine .get fun j => ?_
  simp only [hp, hd]
  refine .bind (.set { s with host := {}, program := some p, diagnostics := [], journal := j }) ?_
  intro j'
  rcases hrun : p.run limits s.globals s.arena s.host with ⟨r, arena, host⟩
  cases r with
  | ok u => exact ⟨_, rfl⟩
  | error e => exact ⟨_, rfl⟩

/-- A failure is written to the journal and passed on. -/
theorem Takes.reported {x : Step Unit} {r : Except Failure Unit} (h : Takes x s r t) :
    Takes (tryCatch x fun e => do
      match e.report? with
      | some line => Session.note (·.error line)
      | none => pure ()
      throw e) s r t := by
  intro j
  obtain ⟨j', hx⟩ := h j
  rw [Step.tryCatch_apply, hx]
  cases r with
  | ok u => exact ⟨j', rfl⟩
  | error e =>
      cases hreport : e.report? with
      | some line => exact ⟨_, by simp only [hreport]; rfl⟩
      | none => exact ⟨_, by simp only [hreport]; rfl⟩

/-- A program without diagnostics is run once its native variables have their first values. -/
theorem evaluate_takes (hp : s.program = some p) (hd : s.diagnostics = [])
    (hreset : s.natives.reset s.globals s.arena = (.ok (), a)) (name : Option String)
    (limits : Limits) :
    Takes (evaluate name limits) s (p.run limits s.globals a s.host).1
      { s with
        arena := (p.run limits s.globals a s.host).2.1
        host := (p.run limits s.globals a s.host).2.2 } := by
  refine .get fun j => ?_
  have hrun := run_takes (s := { s with arena := a }) hp hd limits
  rw [if_neg (by simp [hd])]
  exact .bind (.note _) (.bind (reset_takes hreset) hrun.reported)

/-- What happens while the program of a session is evaluated, in order. -/
def evaluation (limits : Limits) (s : Session) : List Event :=
  match s.program with
  | none => []
  | some p => p.trace limits s.globals (reset s).2.arena s.host

/-- What a session can become by evaluations of its program, and by what is done to its host between
them. -/
inductive Continues (s : Session) : Session → Prop
  | refl : Continues s s
  | host {t : Session} (host : Host) : Continues s t → Continues s { t with host := host }
  | evaluate {t : Session} (name : Option String) (limits : Limits) :
      Continues s t → Continues s (evaluate name limits t).2

end Session

/-- The session can evaluate the program of the setting. -/
structure Setting.Ready (w : Setting) (s : Session) : Prop where
  natives_eq : s.natives = w.natives
  globals_eq : s.globals = w.root
  program_eq : s.program = some w.program
  diagnostics_eq : s.diagnostics = []
  clear : w.Clear s.arena

/-- What an evaluation rests on: the natives are registered, the program follows the rules, and in a
strict setting the branches of conditional expressions agree. -/
structure Setting.Sound (w : Setting) : Prop where
  registered : w.natives.Registered
  wellTyped : w.program.WellTyped w.natives
  even : w.Even

namespace Setting.Ready

variable {s t : Session}

/-- The native variables of a session that is ready can be given their first values again. -/
theorem reset (hw : w.Sound) (R : w.Ready s) :
    ∃ a, s.natives.reset s.globals s.arena = (.ok (), a) ∧ w.Clear a := by
  rw [R.natives_eq, R.globals_eq]
  exact R.clear.resetAll w.natives.vars hw.registered.vars_fit fun _ hv =>
    hw.registered.globals_var w.program hv

/-- An evaluation of a session that is ready is a traced run, which begins when the native variables
have their first values again. -/
theorem evaluate_eq (hw : w.Sound) (R : w.Ready s) (name : Option String) (limits : Limits) :
    ∃ a j, s.natives.reset s.globals s.arena = (.ok (), a) ∧ w.Clear a ∧
      let r := w.program.traced limits (⟨a, s.globals, [], s.host⟩, [])
      Session.evaluate name limits s =
          (r.1, { s with arena := r.2.1.arena, host := r.2.1.host, journal := j }) ∧
        s.evaluation limits = r.2.2 := by
  obtain ⟨a, hreset, C⟩ := R.reset hw
  obtain ⟨j, hevaluate⟩ :=
    Session.evaluate_takes R.program_eq R.diagnostics_eq hreset name limits s.journal
  obtain ⟨j', hreset'⟩ := Session.reset_takes hreset s.journal
  have hevents : s.evaluation limits = w.program.trace limits s.globals a s.host := by
    unfold Session.evaluation
    rw [R.program_eq, show Session.reset s = _ from hreset']
  rw [Program.run_eq_traced] at hevaluate
  exact ⟨a, j, hreset, C, hevaluate, hevents⟩

/-- An evaluation fails only in an allowed way, all its events are true, and afterwards the session
is ready again. -/
theorem evaluate (hw : w.Sound) (R : w.Ready s) (name : Option String) (limits : Limits) :
    ∃ r t, Session.evaluate name limits s = (r, t) ∧ w.Ready t ∧
      (∀ e, r = .error e → ∃ m, m.host = t.host ∧ w.Allowed (m, s.evaluation limits) e) ∧
      ∀ ev ∈ s.evaluation limits, w.Good ev := by
  obtain ⟨a, j, -, C, hevaluate, hevents⟩ := R.evaluate_eq hw name limits
  let m : Machine := { arena := a, globals := s.globals, frames := [], host := s.host }
  have hrests : w.Rests [] (m, []) :=
    ⟨C, R.globals_eq, rfl, fun _ _ hf => absurd hf List.not_mem_nil,
      fun _ hev => absurd hev List.not_mem_nil⟩
  have hyields := Setting.traced_yields hw.even hw.wellTyped limits hrests
  refine ⟨_, _, hevaluate, ?_⟩
  rw [hevents]
  unfold Step.Yields at hyields
  rcases hrun : w.program.traced limits (m, []) with ⟨r, m', log⟩
  rw [hrun] at hyields
  cases r with
  | ok u =>
      refine ⟨⟨R.natives_eq, R.globals_eq, R.program_eq, R.diagnostics_eq, hyields.holds⟩,
        fun e he => ?_, hyields.good⟩
      cases he
  | error e =>
      refine ⟨⟨R.natives_eq, R.globals_eq, R.program_eq, R.diagnostics_eq, hyields.2.holds⟩,
        fun e' he => ?_, hyields.2.good⟩
      cases he
      exact ⟨m', rfl, hyields.1⟩

/-- All that happens in an evaluation is as it should be. -/
theorem good (hw : w.Sound) (R : w.Ready s) (limits : Limits) :
    ∀ ev ∈ s.evaluation limits, w.Good ev := by
  obtain ⟨_, _, -, -, -, hgood⟩ := R.evaluate hw none limits
  exact hgood

/-- A session stays ready. -/
theorem continues (hw : w.Sound) (R : w.Ready s) (h : s.Continues t) : w.Ready t := by
  induction h with
  | refl => exact R
  | host host _ ih =>
      exact ⟨ih.natives_eq, ih.globals_eq, ih.program_eq, ih.diagnostics_eq, ih.clear⟩
  | evaluate name limits _ ih =>
      obtain ⟨r, t, heq, R', -⟩ := ih.evaluate hw name limits
      rw [heq]
      exact R'

end Setting.Ready

/-- A session with a loaded program is ready. -/
theorem Session.Loaded.ready {natives : Natives} {p : Program} {s₀ s : Session}
    (L : Loaded natives p s₀ s) (hn : natives.Registered) (strict : Bool) :
    Setting.Ready ⟨strict, natives, p, 0⟩ s := by
  obtain ⟨fs, hfs, H⟩ := L.holds
  exact ⟨L.natives_eq, L.globals_eq, L.program_eq, L.diagnostics_eq, _, H,
    Setting.serves_globalSymbols hn L.wellTyped hfs, fun _ => Program.tagged_globalSymbols hn fs⟩

/-! ## Evaluations are safe -/

namespace Session

variable {natives : Natives} {source : String} {filename : Option String} {host : Host}
  {context : Option LogContext} {time : String} {s₀ s t : Session}

/-- What an evaluation rests on where no type of a value matters. -/
theorem Loaded.sound {p : Program} (L : Loaded natives p s₀ s) (hn : natives.Registered) :
    Setting.Sound ⟨false, natives, p, 0⟩ :=
  ⟨hn, L.wellTyped, nofun⟩

/-- A program that was loaded without diagnostics can be evaluated at any time afterwards. -/
theorem ready_of_load (hn : natives.Registered)
    (hload : load source filename (start natives host context time) = (.ok (), s))
    (hd : s.diagnostics = []) (hs : s.Continues t) :
    ∃ p s₀, prepare source filename (start natives host context time) = (.ok (), s₀) ∧
      Loaded natives p s₀ s ∧ Setting.Sound ⟨false, natives, p, 0⟩ ∧
      Setting.Ready ⟨false, natives, p, 0⟩ t := by
  obtain ⟨p, s₀, -, hprepare, L⟩ := loaded_of_load hn hload hd
  exact ⟨p, s₀, hprepare, L, L.sound hn, (L.ready hn false).continues (L.sound hn) hs⟩

/-- Every evaluation of a program that was loaded without diagnostics ends normally or fails at run
time, unless a loop is cut off. -/
theorem evaluate_safe (hn : natives.Registered) (hb : ∀ f ∈ natives.funcs, f.Behaves)
    (hload : load source filename (start natives host context time) = (.ok (), s))
    (hd : s.diagnostics = []) (hs : s.Continues t) (name : Option String) (limits : Limits) :
    (evaluate name limits t).1 = .ok () ∨ (evaluate name limits t).1 = .error .unfinished ∨
      ∃ cause sp, (evaluate name limits t).1 = .error (.runtime cause sp) := by
  obtain ⟨p, s₀, -, -, hw, R⟩ := ready_of_load hn hload hd hs
  obtain ⟨r, t', heq, -, hallowed, -⟩ := R.evaluate hw name limits
  rw [heq]
  cases r with
  | ok u => exact .inl rfl
  | error e =>
      obtain ⟨m, -, hfailed⟩ := hallowed e rfl
      cases hfailed with
      | unfinished => exact .inr (.inl rfl)
      | runtime _ => exact .inr (.inr ⟨_, _, rfl⟩)
      | unruly hf hnot => exact absurd (hb _ hf) hnot

/-- A program whose third call gets a text where the rules promise a number. -/
def mixedSource : String :=
  "int half(int n) return n / 2; for i = 0 to 3 print(half(i < 2 ? i : \"many\"));"

/-- Such a program is loaded without diagnostics, and its second evaluation, too, fails at run time
at most. -/
theorem evaluate_safe_mixed :
    ∃ s, load mixedSource none (start Console.natives {} none "") = (.ok (), s) ∧
      s.diagnostics = [] ∧
      let t := (evaluate none {} s).2
      ((evaluate none {} t).1 = .ok () ∨ (evaluate none {} t).1 = .error .unfinished ∨
        ∃ cause sp, (evaluate none {} t).1 = .error (.runtime cause sp)) := by
  obtain ⟨s, hload, hd⟩ : ∃ s, load mixedSource none (start Console.natives {} none "") =
      (.ok (), s) ∧ s.diagnostics = [] := exists_of_quiet (by decide +kernel)
  refine ⟨s, hload, hd, ?_⟩
  exact evaluate_safe Console.natives_registered Console.natives_behave hload hd
    (.evaluate none {} .refl) none {}

end Session

end Pigeon
