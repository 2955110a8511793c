import Pigeon.Proofs.Session.Balanced

/-!
# Evaluations are independent

What a *steady* native function gives and what it writes depends on its arguments only. With such
natives an evaluation leaves nothing behind that another one could notice. Every evaluation begins
with a global scope that shows the same environment, since only the values of native variables can
have changed, and these get their first values again. Two such evaluations run in lockstep, whatever
the free lists of their arenas are.
-/

namespace Pigeon

/-! ## Steady natives -/

/-- What the callback gives, and what it writes, depends on its arguments only. -/
def Callback.Steady (c : Callback) : Prop :=
  ∃ (result : List Value → Except Failure Payload) (output : List Value → String),
    ∀ args host, (c args host).1 = result args ∧ (c args host).2.output = host.output ++ output args

/-- Both hosts have written the same text since their outputs were `before` and `before'`. -/
def Host.Wrote (before before' : String) (host host' : Host) : Prop :=
  ∃ text, host.output = before ++ text ∧ host'.output = before' ++ text

/-- A steady callback does the same whatever was written before. -/
theorem Callback.Steady.respects {c : Callback} (h : c.Steady) (before before' : String) :
    c.Respects (Host.Wrote before before') := by
  obtain ⟨result, output, h⟩ := h
  rintro args host host' ⟨text, hwrote, hwrote'⟩
  obtain ⟨hresult, houtput⟩ := h args host
  obtain ⟨hresult', houtput'⟩ := h args host'
  refine ⟨hresult.trans hresult'.symm, text ++ output args, ?_, ?_⟩
  · rw [houtput, hwrote, String.append_assoc]
  · rw [houtput', hwrote', String.append_assoc]

/-- What is printed does not depend on what was printed before. -/
theorem Console.print_steady : Callback.Steady print := by
  -- what it writes is what it leaves on an empty output
  refine ⟨fun args => (print args {}).1, fun args => (print args {}).2.output,
    fun args host => ?_⟩
  simp only [print]
  cases argument args 0 with
  | error e => exact ⟨rfl, (String.append_empty).symm⟩
  | ok v =>
    refine ⟨rfl, ?_⟩
    simp only [Host.write, String.empty_append, String.append_assoc]

/-! ## First values -/

/-- The environment has the native variables with their first values, and no other variables. -/
structure Natives.Stocks (natives : Natives) (base : Environment) : Prop where
  var : ∀ v ∈ natives.vars, v.Fits ∧ base v.name = some v.symbol
  only : ∀ name v, base name = some (.var v) → ∃ x ∈ natives.vars, x.name = name

/-- The global symbols of a loaded program. -/
theorem Program.stocks_globalSymbols {natives : Natives} (hn : natives.Registered)
    (fs : List Function) : natives.Stocks (Program.globalSymbols natives fs).find? := by
  constructor
  · intro v hv
    have hnodup := hn.names_nodup
    unfold Natives.names at hnodup
    have hfind : (natives.vars.map fun v => (v.name, v.symbol)).lookup v.name = some v.symbol :=
      lookup_of_mem hnodup.of_append_left hv
    refine ⟨hn.vars_fit v hv, ?_⟩
    unfold Symbols.find? Program.globalSymbols Symbol.named Natives.symbols
    rw [List.map_append, List.map_map, List.lookup_append, List.lookup_append]
    rw [show natives.vars.map ((fun s => (s.name, s)) ∘ NativeVariable.symbol) = _ from
      List.map_congr_left fun v _ => (rfl : _ = (v.name, v.symbol)), hfind]
    rfl
  · intro name v hv
    rcases Program.mem_globalSymbols (Symbols.mem_of_find? hv) with
      ⟨x, hx, heq⟩ | ⟨f, -, heq⟩ | ⟨f, -, heq⟩
    · cases heq
      exact ⟨x, hx, rfl⟩
    · cases heq
    · cases heq

namespace Environment.Revalues

variable {env base : Environment} {name : String}

/-- A variable of `base` can have another value. -/
theorem var_eq (h : env.Revalues base) {v : Variable} (hv : base name = some (.var v)) :
    ∃ value, env name = some (.var { v with value := value }) := by
  have hname := h name
  rw [hv] at hname
  rcases henv : env name with _ | (w | f)
  · rw [henv] at hname
    cases hname
  · rw [henv] at hname
    have hw : ({ w with value := none } : Variable) = { v with value := none } :=
      Symbol.var.inj (Option.some.inj hname)
    refine ⟨w.value, ?_⟩
    rw [show ({ v with value := w.value } : Variable) = w from
      congrArg (fun u : Variable => { u with value := w.value }) hw.symm]
  · rw [henv] at hname
    cases hname

/-- What is no variable of `base` is the same. -/
theorem eq_of_not_var (h : env.Revalues base) (hname : ∀ v, base name ≠ some (.var v)) :
    env name = base name := by
  rcases henv : env name with _ | (w | f)
  · have hnone := h name
    rw [henv, Option.map_none, eq_comm, Option.map_eq_none_iff] at hnone
    exact hnone.symm
  · have hvar := h name
    rw [henv] at hvar
    rcases hbase : base name with _ | (v | f)
    · rw [hbase] at hvar
      cases hvar
    · exact absurd hbase (hname v)
    · rw [hbase] at hvar
      cases hvar
  · exact (h.func_eq henv).symm

end Environment.Revalues

section

variable {a : Arena} {g : Handle} {G : Symbols} {base : Environment}

/-- A native variable gets its first value again. -/
theorem Natives.resetVariable_eq (H : a.Holds g G []) (hbase : Environment.Revalues G.find? base)
    {v : NativeVariable} (hfits : v.Fits) (hv : base v.name = some v.symbol) :
    ∃ a', resetVariable g v a = .ok a' ∧ a'.Holds g (G.insert v.name v.symbol) [] := by
  obtain ⟨first, hfirst, -, hsymbol⟩ := hfits.first
  rw [hsymbol] at hv ⊢
  obtain ⟨value, hfind⟩ := hbase.var_eq hv
  refine ⟨_, ?_, H.store_global v.name _⟩
  unfold resetVariable Arena.put
  rw [hfirst, H.global? v.name, hfind]
  show (a.get g >>= _) = _
  rw [Arena.get_eq_ok H.root]
  rfl

/-- All native variables get their first values again, and nothing else changes. -/
theorem Natives.resetAll_eq {vars : List NativeVariable} (H : a.Holds g G [])
    (hbase : Environment.Revalues G.find? base)
    (hvars : ∀ v ∈ vars, v.Fits ∧ base v.name = some v.symbol) :
    ∃ a' G', resetAll g vars a = (.ok (), a') ∧ a'.Holds g G' [] ∧
      Environment.Revalues G'.find? base ∧
      (∀ name, Symbols.find? G name = base name → Symbols.find? G' name = base name) ∧
      ∀ v ∈ vars, Symbols.find? G' v.name = base v.name := by
  induction vars generalizing a G with
  | nil => exact ⟨a, G, rfl, H, hbase, fun _ h => h, fun _ hv => absurd hv List.not_mem_nil⟩
  | cons v vars ih =>
      rw [List.forall_mem_cons] at hvars
      obtain ⟨⟨hfits, hv⟩, hvars⟩ := hvars
      obtain ⟨a₁, hfirst, H₁⟩ := Natives.resetVariable_eq H hbase hfits hv
      -- a variable that has its first value keeps it when another one is reset
      have hkept : ∀ name, Symbols.find? G name = base name →
          Symbols.find? (G.insert v.name v.symbol) name = base name := by
        intro name hname
        rw [Symbols.find?_insert]
        split
        · next heq => rw [heq, hv]
        · exact hname
      have hset : Symbols.find? (G.insert v.name v.symbol) v.name = base v.name := by
        rw [Symbols.find?_insert, if_pos rfl, hv]
      have hbase₁ : Environment.Revalues (Symbols.find? (G.insert v.name v.symbol)) base := by
        intro name
        by_cases hname : name = v.name
        · rw [hname, hset]
        · rw [Symbols.find?_insert, if_neg hname]
          exact hbase name
      obtain ⟨a₂, G₂, hrest, H₂, hbase₂, hkept₂, hset₂⟩ := ih H₁ hbase₁ hvars
      refine ⟨a₂, G₂, ?_, H₂, hbase₂, fun name h => hkept₂ name (hkept name h), ?_⟩
      · rw [resetAll, changeAll, hfirst]
        exact hrest
      · rw [List.forall_mem_cons]
        exact ⟨hkept₂ v.name hset, hset₂⟩

/-- After a reset the global scope shows the first values. -/
theorem Natives.reset_eq {natives : Natives} (H : a.Holds g G [])
    (hbase : Environment.Revalues G.find? base) (hstocks : natives.Stocks base) :
    ∃ a' G', natives.reset g a = (.ok (), a') ∧ a'.Holds g G' [] ∧ Symbols.find? G' = base := by
  obtain ⟨a', G', hreset, H', hbase', -, hset⟩ := Natives.resetAll_eq H hbase hstocks.var
  refine ⟨a', G', hreset, H', funext fun name => ?_⟩
  -- every global variable is a native one, and all of these are reset; nothing else can differ
  by_cases hname : ∃ v, base name = some (.var v)
  · obtain ⟨v, hv⟩ := hname
    obtain ⟨x, hx, rfl⟩ := hstocks.only name v hv
    exact hset x hx
  · exact hbase'.eq_of_not_var fun v hv => hname ⟨v, hv⟩

end

/-! ## Two evaluations of one program -/

namespace Session

/-- The session can evaluate the program, from a global scope with the symbols of `base` and any
values. -/
structure Stocked (natives : Natives) (p : Program) (base : Environment) (s : Session) : Prop where
  natives_eq : s.natives = natives
  program_eq : s.program = some p
  diagnostics_eq : s.diagnostics = []
  holds : ∃ G, s.arena.Holds s.globals G [] ∧ Environment.Revalues G.find? base

variable {natives : Natives} {p : Program} {base : Environment} {s s' : Session}

/-- A session can evaluate its program on another host. -/
theorem Stocked.onHost (S : s.Stocked natives p base) (host : Host) :
    Stocked natives p base { s with host := host } :=
  ⟨S.natives_eq, S.program_eq, S.diagnostics_eq, S.holds⟩

/-- An evaluation runs the program on a machine that shows the first values. The session can
evaluate its program again if the machine has no frames at the end and global variables have other
values at most. -/
theorem Stocked.evaluate_eq (hstocks : natives.Stocks base) (S : s.Stocked natives p base)
    (name : Option String) (limits : Limits) :
    ∃ m : Machine, m.Shows ⟨base, []⟩ ∧ m.host = s.host ∧ ∀ r t n, p.steps limits m = (r, t) →
      m.SameFrames t → t.Shows n → n.globals.Revalues base →
        ∃ u, evaluate name limits s = (r, u) ∧ u.host = t.host ∧ u.Stocked natives p base := by
  obtain ⟨G, H, hbase⟩ := S.holds
  obtain ⟨a, G₁, hreset, H₁, rfl⟩ := Natives.reset_eq H hbase hstocks
  have M : Machine.Shows ⟨a, s.globals, [], s.host⟩ ⟨G₁.find?, []⟩ :=
    Scopes.Lies.shows (F := []) ⟨H₁, rfl⟩
  refine ⟨_, M, rfl, ?_⟩
  intro r t n hrun hsame T hrevalues
  rw [← S.natives_eq] at hreset
  obtain ⟨j, hevaluate⟩ :=
    evaluate_takes S.program_eq S.diagnostics_eq hreset name limits s.journal
  rw [Program.run_eq_steps, hrun] at hevaluate
  obtain ⟨G', H', hG'⟩ := T.exists_holds hsame.frames
  rw [hsame.globals] at H'
  exact ⟨_, hevaluate, rfl, S.natives_eq, S.program_eq, S.diagnostics_eq, G', H', hG' ▸ hrevalues⟩

/-- Two evaluations of programs with the same steps end in the same way, with hosts that are in a
relation which the functions respect. -/
theorem Stocked.evaluate_lockstep {R : Host → Host → Prop} {q : Program}
    (hstocks : natives.Stocks base) (hregular : base.Regular R)
    (hsteps : ∀ limits, p.steps limits = q.steps limits) (S : s.Stocked natives p base)
    (S' : s'.Stocked natives q base) (hhosts : R s.host s'.host) (name name' : Option String)
    (limits : Limits) :
    ∃ r u u', evaluate name limits s = (r, u) ∧ evaluate name' limits s' = (r, u') ∧
      R u.host u'.host ∧ u.Stocked natives p base ∧ u'.Stocked natives q base := by
  obtain ⟨m, M, hhost, hend⟩ := S.evaluate_eq hstocks name limits
  obtain ⟨m', M', hhost', hend'⟩ := S'.evaluate_eq hstocks name' limits
  have A : m.Alike R base m' := by
    refine ⟨⟨_, M, M', .refl base⟩, ?_⟩
    rw [hhost, hhost']
    exact hhosts
  -- the machines need not be equal: one arena may have more free slots than the other
  obtain ⟨r, t, t', hrun, hrun', ⟨⟨n, T, T', hrevalues⟩, hhosts'⟩, hsame, hsame'⟩ :=
    p.steps_lockstep hregular limits A (Nat.zero_le _)
  rw [hsteps] at hrun'
  obtain ⟨u, hevaluate, hu, U⟩ := hend r t n hrun hsame T hrevalues
  obtain ⟨u', hevaluate', hu', U'⟩ := hend' r t' n hrun' hsame' T' hrevalues
  exact ⟨r, u, u', hevaluate, hevaluate', by rwa [hu, hu'], U, U'⟩

/-- Two evaluations of one program end in the same way and write the same text. -/
theorem Stocked.evaluate_agree (hstocks : natives.Stocks base)
    (hregular : ∀ before before', base.Regular (Host.Wrote before before'))
    (S : s.Stocked natives p base) (S' : s'.Stocked natives p base) (name name' : Option String)
    (limits : Limits) :
    ∃ r u u' text, evaluate name limits s = (r, u) ∧ evaluate name' limits s' = (r, u') ∧
      u.host.output = s.host.output ++ text ∧ u'.host.output = s'.host.output ++ text ∧
      u.Stocked natives p base ∧ u'.Stocked natives p base := by
  have hhosts : Host.Wrote s.host.output s'.host.output s.host s'.host :=
    ⟨"", String.append_empty.symm, String.append_empty.symm⟩
  obtain ⟨r, u, u', hevaluate, hevaluate', ⟨text, hwrote, hwrote'⟩, U, U'⟩ :=
    S.evaluate_lockstep hstocks (hregular _ _) (fun _ => rfl) S' hhosts name name' limits
  exact ⟨r, u, u', text, hevaluate, hevaluate', hwrote, hwrote', U, U'⟩

/-! ## Sequences of evaluations -/

/-- The session holds a program that was loaded without diagnostics. -/
def Clean (natives : Natives) (source : String) (filename : Option String) (s : Session) : Prop :=
  ∃ host context time,
    load source filename (start natives host context time) = (.ok (), s) ∧ s.diagnostics = []

/-- How an evaluation on a host ends and what it writes, and the session afterwards. -/
def evaluateOn (name : Option String) (limits : Limits) (host : Host) (s : Session) :
    (Except Failure Unit × String) × Session :=
  let (r, s) := evaluate name limits { s with host := { host with output := "" } }
  ((r, s.host.output), s)

/-- A call that evaluates one of several sessions. -/
structure EvaluateCall (ι : Type) where
  member : ι
  name : Option String
  limits : Limits

/-- What calls one after another give, on sessions that share a host. -/
def evaluateAll {ι : Type} [DecidableEq ι] :
    List (EvaluateCall ι) → (ι → Session) → Host → List (Except Failure Unit × String)
  | [], _, _ => []
  | c :: cs, pool, host =>
    let (answer, s) := evaluateOn c.name c.limits host (pool c.member)
    answer :: evaluateAll cs (Function.update pool c.member s) s.host

/-- The sessions can evaluate the same program, with the same first values. -/
def Twins (natives : Natives) (s s' : Session) : Prop :=
  ∃ p base, natives.Stocks base ∧
    (∀ before before', base.Regular (Host.Wrote before before')) ∧
    s.Stocked natives p base ∧ s'.Stocked natives p base

/-- Declarations describe one list of functions. -/
theorem describe_unique {ds : List FuncDecl} {fs fs' : List Function}
    (h : FuncDecl.Describe ds fs) (h' : FuncDecl.Describe ds fs') : fs = fs' := by
  refine List.right_unique_forall₂' (fun d f f' hf hf' => ?_) h h'
  exact Except.ok.inj (hf.1.symm.trans hf'.1)

/-- Sessions with the same source can evaluate the same program. -/
theorem Clean.twins {source : String} {filename : Option String} (hn : natives.Registered)
    (hsteady : ∀ f ∈ natives.funcs, f.callback.Steady) (hs : s.Clean natives source filename)
    (hs' : s'.Clean natives source filename) : Twins natives s s' := by
  obtain ⟨host, context, time, hload, hd⟩ := hs
  obtain ⟨host', context', time', hload', hd'⟩ := hs'
  obtain ⟨p, s₀, hp, -, L⟩ := loaded_of_load hn hload hd
  obtain ⟨p', s₀', hp', -, L'⟩ := loaded_of_load hn hload' hd'
  -- reading and describing a source depends on nothing else, so both sessions have the same globals
  obtain rfl : p = p' := Except.ok.inj (hp.symm.trans hp')
  obtain ⟨fs, hfs, H⟩ := L.holds
  obtain ⟨fs', hfs', H'⟩ := L'.holds
  obtain rfl : fs = fs' := describe_unique hfs hfs'
  refine ⟨p, _, Program.stocks_globalSymbols hn fs, fun before before' => ?_, ?_, ?_⟩
  · have hserves := Setting.serves_globalSymbols (w := ⟨false, natives, p, 0⟩) hn L.wellTyped hfs
    exact hserves.regular fun n hmem => (hsteady n hmem).respects before before'
  · rw [← L.globals_eq] at H
    exact ⟨L.natives_eq, L.program_eq, L.diagnostics_eq, _, H, .refl _⟩
  · rw [← L'.globals_eq] at H'
    exact ⟨L'.natives_eq, L'.program_eq, L'.diagnostics_eq, _, H', .refl _⟩

/-- An evaluation of one of the sessions agrees with the other one, and the session can again
evaluate the same program. -/
theorem Twins.evaluateOn (T : Twins natives s s') (name name' : Option String) (limits : Limits)
    (host host' : Host) :
    (evaluateOn name limits host s).1 = (evaluateOn name' limits host' s').1 ∧
      Twins natives (evaluateOn name limits host s).2 s' := by
  obtain ⟨p, base, hstocks, hregular, S, S'⟩ := T
  obtain ⟨r, u, u', text, hevaluate, hevaluate', hwrote, hwrote', U, -⟩ :=
    (S.onHost { host with output := "" }).evaluate_agree hstocks hregular
      (S'.onHost { host' with output := "" }) name name' limits
  unfold Session.evaluateOn
  rw [hevaluate, hevaluate']
  refine ⟨?_, p, base, hstocks, hregular, U, S'⟩
  show (r, u.host.output) = (r, u'.host.output)
  rw [hwrote, hwrote']

/-- Take any sessions with programs that were loaded without diagnostics on a host with steady
natives. However evaluations of them follow each other, each one ends and writes as the first
evaluation of a fresh session for its source does. -/
theorem evaluations_independent {ι : Type} [DecidableEq ι] (hn : natives.Registered)
    (hsteady : ∀ f ∈ natives.funcs, f.callback.Steady) {source : ι → String}
    {filename : ι → Option String} {pool fresh : ι → Session}
    (hpool : ∀ i, (pool i).Clean natives (source i) (filename i))
    (hfresh : ∀ i, (fresh i).Clean natives (source i) (filename i))
    (calls : List (EvaluateCall ι)) (host host' : Host) :
    evaluateAll calls pool host =
      calls.map fun c => (evaluateOn c.name c.limits host' (fresh c.member)).1 := by
  have htwins : ∀ i, Twins natives (pool i) (fresh i) := fun i =>
    (hpool i).twins hn hsteady (hfresh i)
  -- being twins is the invariant: a session that has evaluated is no longer a clean one
  clear hpool
  induction calls generalizing pool host with
  | nil => rfl
  | cons c calls ih =>
      obtain ⟨hanswer, T⟩ := (htwins c.member).evaluateOn c.name c.name c.limits host host'
      rw [evaluateAll, List.map_cons, ← hanswer]
      refine congrArg (_ :: ·) (ih _ fun i => ?_)
      by_cases hi : i = c.member
      · subst hi
        rw [Function.update_self]
        exact T
      · rw [Function.update_of_ne hi]
        exact htwins i

/-- A host with a variable, and with a function that writes its argument. -/
def tallyNatives : Natives where
  vars := [⟨.int, "tally", false, .int 0⟩]
  funcs := [⟨.void, "print", Console.print, [.any]⟩]
  claimed := ["tally", "print"]

theorem tallyNatives_registered : tallyNatives.Registered := by
  have hvar : Natives.registerVariable {} .int "tally" false (.int 0) =
      .ok { vars := tallyNatives.vars, claimed := ["tally"] } := rfl
  have hfunc : Natives.registerFunction { vars := tallyNatives.vars, claimed := ["tally"] } .void
      "print" Console.print [.any] = .ok tallyNatives := rfl
  exact .func (.var .empty hvar) hfunc

/-- One program that counts on, and one that fails after it has changed the variable. -/
def tallySource : Bool → String
  | true => "tally += 1; print(tally);"
  | false => "tally = 7; print(tally); print(1 / (tally - 7));"

/-- Evaluated in turn, the first program writes the same number each time, although the other one
fails in between with the variable changed. -/
theorem evaluations_independent_tally : ∃ pool : Bool → Session,
    (∀ b, (pool b).Clean tallyNatives (tallySource b) none) ∧
      (evaluateOn none {} {} (pool true)).1.2 = "1\n" ∧
      (evaluateOn none {} {} (pool false)).1.1.isOk = false ∧
      let calls : List (EvaluateCall Bool) := [true, false, true].map (⟨·, none, {}⟩)
      evaluateAll calls pool {} =
        calls.map fun c => (evaluateOn c.name c.limits {} (pool c.member)).1 := by
  have hsteady : ∀ f ∈ tallyNatives.funcs, f.callback.Steady := by
    intro f hf
    obtain rfl := List.mem_singleton.mp hf
    exact Console.print_steady
  have hload : ∀ b, ∃ s, load (tallySource b) none (start tallyNatives {} none "") = (.ok (), s) ∧
      s.diagnostics = [] := by
    intro b
    cases b <;> exact exists_of_quiet (by decide +kernel)
  have hwrites : (evaluateOn none {} {}
      (load (tallySource true) none (start tallyNatives {} none "")).2).1.2 = "1\n" := by
    decide +kernel
  have hfails : (evaluateOn none {} {}
      (load (tallySource false) none (start tallyNatives {} none "")).2).1.1.isOk = false := by
    decide +kernel
  choose pool hpool using hload
  have hclean : ∀ b, (pool b).Clean tallyNatives (tallySource b) none := fun b =>
    ⟨{}, none, "", hpool b⟩
  rw [(hpool true).1] at hwrites
  rw [(hpool false).1] at hfails
  exact ⟨pool, hclean, hwrites, hfails,
    evaluations_independent tallyNatives_registered hsteady hclean hclean _ {} {}⟩

end Session

end Pigeon
