import Pigeon.Proofs.Execution.Solid
import Pigeon.Proofs.Session.Typed

/-!
# Evaluations store no void value

After a program was loaded, all variables are native variables, which have values of types other than
`void`. Every evaluation keeps all variables solid, if the check has recorded `void` for the second
branch of a conditional expression only where it has recorded `void` for the first one.

Without this condition it is not so: the check takes the type of a conditional expression from its
first branch, and so accepts a void value as an initializer and as an argument.
-/

namespace Pigeon

variable {w : Setting}

/-! ## Solid sessions -/

/-- The global symbols of a typed program have distinct names. -/
theorem Program.nodup_globalSymbols (hn : w.natives.Registered)
    (W : w.program.WellTyped w.natives) {fs : List Function}
    (hfs : FuncDecl.Describe w.program.functions fs) :
    ((Program.globalSymbols w.natives fs).map (·.1)).Nodup := by
  have hnames : fs.map (·.name) = w.program.functions.map (·.name) := by
    refine List.ext_getElem (by simp [hfs.length_eq]) fun i hi hi' => ?_
    rw [List.length_map] at hi hi'
    rw [List.getElem_map, List.getElem_map]
    exact (FuncDecl.toFunction_ok (hfs.get hi' hi).1).1
  have hkeys : (Program.globalSymbols w.natives fs).map (·.1) =
      w.natives.names ++ w.program.functions.map (·.name) := by
    rw [← hnames, ← w.natives.map_name_symbols]
    unfold Program.globalSymbols Symbol.named
    simp only [List.map_append, List.map_map]
    rfl
  rw [hkeys, List.nodup_append]
  refine ⟨hn.names_nodup, W.names_nodup, ?_⟩
  rintro name hnative _ hdeclared rfl
  obtain ⟨d, hd, rfl⟩ := List.mem_map.mp hdeclared
  exact W.names_not_native d hd hnative

/-- The global symbols of a loaded program are solid. -/
theorem Setting.solid_globalSymbols (hn : w.natives.Registered)
    (W : w.program.WellTyped w.natives) {fs : List Function}
    (hfs : FuncDecl.Describe w.program.functions fs) :
    ∀ x ∈ Program.globalSymbols w.natives fs, w.Solid x := by
  rintro ⟨name, s⟩ hx
  cases s with
  | var v =>
      rcases Program.mem_globalSymbols hx with ⟨n, hmem, heq⟩ | ⟨f, -, heq⟩ | ⟨f, -, heq⟩
      · obtain ⟨value, -, hty, hsymbol⟩ := (hn.vars_fit n hmem).first
        rw [hsymbol] at heq
        cases heq
        exact ⟨value, rfl, hty ▸ (hn.vars_fit n hmem).1⟩
      · cases heq
      · cases heq
  | func f =>
      -- under its name, what the globals say is found
      have hfind : ((Program.globalSymbols w.natives fs).map fun x => (x.1, x.2)).lookup name =
          some (.func f) := lookup_of_mem (Program.nodup_globalSymbols hn W hfs) hx
      rw [List.map_id'] at hfind
      have hserves := Setting.serves_globalSymbols hn W hfs name
      rw [show Symbols.find? _ name = _ from hfind] at hserves
      generalize hglobal : w.globals name = entity at hserves
      cases hserves with
      | func hf => exact ⟨hglobal, hf⟩

/-- Giving native variables their first values again keeps all variables solid. -/
theorem Natives.resetAll_all (g : Handle) {vars : List NativeVariable} {a : Arena}
    (H : a.All w.Solid) (hfits : ∀ v ∈ vars, v.Fits) :
    (Natives.resetAll g vars a).2.All w.Solid := by
  induction vars generalizing a with
  | nil => exact H
  | cons v vars ih =>
      rw [List.forall_mem_cons] at hfits
      obtain ⟨hv, hrest⟩ := hfits
      obtain ⟨value, hvalue, hty, -⟩ := hv.first
      rw [Natives.resetAll, Natives.changeAll]
      cases hreset : Natives.resetVariable g v a with
      | error e => exact H
      | ok a' =>
          refine ih ?_ hrest
          -- a function of that name is left alone, and a variable gets the first value
          obtain ⟨first, hfirst, hreset⟩ := exists_of_bind_eq_ok hreset
          obtain rfl : value = first := Except.ok.inj (hvalue.symm.trans hfirst)
          obtain ⟨found, -, hfound⟩ := exists_of_bind_eq_ok hreset
          split at hfound
          · cases hfound
          · cases hfound
            exact H
          · obtain ⟨_, -, hstore⟩ := exists_of_bind_eq_ok hfound
            cases hstore
            exact H.store g ⟨value, rfl, hty ▸ hv.1⟩

namespace Setting.Ready

variable {s t : Session}

/-- An evaluation in a firm setting keeps all variables solid, at every moment and to its end. -/
theorem evaluate_solid (hw : w.Sound) (hfirm : w.Firm) (R : w.Ready s) (H : s.arena.All w.Solid)
    (name : Option String) (limits : Limits) :
    (Session.evaluate name limits s).2.arena.All w.Solid ∧
      ∀ ev ∈ s.evaluation limits, ev.machine.arena.All w.Solid := by
  obtain ⟨a, j, hreset, -, hevaluate, hevents⟩ := R.evaluate_eq hw name limits
  have Ha : a.All w.Solid := by
    have hall := Natives.resetAll_all s.globals H hfirm.registered.vars_fit
    rw [← R.natives_eq, show Natives.resetAll s.globals s.natives.vars s.arena = _ from hreset]
      at hall
    exact hall
  have hyields := hfirm.traced_keeps limits (⟨a, s.globals, [], s.host⟩, [])
    ⟨Ha, List.forall_mem_nil _⟩
  rw [hevaluate, hevents]
  unfold Step.Yields at hyields
  rcases hrun : w.program.traced limits (⟨a, s.globals, [], s.host⟩, []) with ⟨r, m, log⟩
  rw [hrun] at hyields
  cases r with
  | ok u => exact hyields.2
  | error e => exact hyields

/-- A session stays solid. -/
theorem continues_solid (hw : w.Sound) (hfirm : w.Firm) (R : w.Ready s)
    (H : s.arena.All w.Solid) (h : s.Continues t) : t.arena.All w.Solid := by
  induction h with
  | refl => exact H
  | host host _ ih => exact ih
  | evaluate name limits hst ih =>
      exact ((R.continues hw hst).evaluate_solid hw hfirm ih name limits).1

end Setting.Ready

/-! ## Parameters -/

/-- The parameters of a function have the names of the declaration. -/
theorem Param.exists_mem_parameters {ps : List Param} {qs : List Parameter}
    (h : Param.parameters ps = .ok qs) {p : Param} (hp : p ∈ ps) : ∃ q ∈ qs, q.name = p.name := by
  induction ps generalizing qs with
  | nil => cases hp
  | cons p' ps ih =>
      obtain ⟨t, qs', -, hqs, rfl⟩ := Param.parameters_cons h
      rw [List.mem_cons] at hp
      rcases hp with rfl | hp
      · exact ⟨_, List.mem_cons_self, rfl⟩
      · obtain ⟨q, hq, hname⟩ := ih hqs hp
        exact ⟨q, List.mem_cons_of_mem _ hq, hname⟩

/-- In the context of its body a function has its parameters. -/
theorem FuncDecl.WellTyped.resolve_param {Δ : Globals} {d : FuncDecl} {f : Function}
    (W : d.WellTyped Δ f) {p : Param} (hp : p ∈ d.params) :
    ∃ t readOnly, Context.resolve Δ [d.paramBlock] p.name = some (t, readOnly) := by
  obtain ⟨q, hq, hname⟩ := Param.exists_mem_parameters (FuncDecl.toFunction_ok W.function).2.1 hp
  have hblock : d.paramBlock = f.params.map Parameter.binding := by
    unfold FuncDecl.paramBlock
    rw [W.function]
  obtain ⟨v, hv⟩ : ∃ v, d.paramBlock.find? (·.name = p.name) = some v := by
    rw [← Option.isSome_iff_exists, List.find?_isSome, hblock]
    exact ⟨q.binding, List.mem_map_of_mem hq, decide_eq_true hname⟩
  refine ⟨v.ty, v.readOnly, ?_⟩
  unfold Context.resolve Context.find?
  rw [List.findSome?_cons, hv]

/-- When the machine begins with the body of a function, the parameters have values. -/
theorem Setting.Good.lookup_param {ev : Event} (hgood : w.Good ev)
    (W : w.program.WellTyped w.natives) {d : FuncDecl} (hd : d ∈ w.program.functions)
    (hindex : ev.index = Item.bodyIndex d.name 0 w.program.items) {n : Node}
    (hmoment : ev.moment = .enter n) {p : Param} (hp : p ∈ d.params) :
    ∃ value, (Run.lookup p.name ev.machine).1 = .ok value := by
  obtain ⟨Γ, G, f, F, hΓ, S, htold⟩ := hgood
  have hlisted := Setting.listed_body W hd
  obtain ⟨fn, Wf⟩ := W.functions d hd
  obtain ⟨t, readOnly, hresolve⟩ := Wf.resolve_param hp
  -- the site with the number of the body is the body in the context of the parameters
  obtain ⟨rest, hsites⟩ : ∃ rest, d.sites w.globals = ⟨.block d.body, [d.paramBlock]⟩ :: rest := by
    unfold FuncDecl.sites
    cases d.body with
    | mk stmts braced sp => exact ⟨_, Block.sites.eq_1 _ _ _ _ _ _⟩
  rw [hmoment, hindex] at htold
  rw [hsites] at hlisted
  have hsite : some (Site.mk n Γ) = some ⟨.block d.body, [d.paramBlock]⟩ :=
    htold.symm.trans hlisted.head
  cases hsite
  obtain ⟨value, hlookup, -⟩ := Run.lookup_eq S hΓ hresolve
  exact ⟨value, by rw [hlookup]⟩

/-! ## Every evaluation -/

namespace Session

variable {natives : Natives} {p : Program} {source : String} {filename : Option String}
  {host : Host} {context : Option LogContext} {time : String} {s₀ s t : Session}

/-- No variable of a scope that is alive is void while the session is evaluated, and no parameter of
a function of the program is void when the function begins. -/
structure StaysSolid (t : Session) (p : Program) (limits : Limits) : Prop where
  live : ∀ ev ∈ t.evaluation limits, ev.machine.arena.Solid
  params : ∀ d ∈ p.functions, ∀ ev ∈ t.evaluation limits, ∀ n, ev.moment = .enter n →
    ev.index = Item.bodyIndex d.name 0 p.items → ∀ q ∈ d.params,
      ∃ value, (Run.lookup q.name ev.machine).1 = .ok value ∧ value.ty ≠ .void

/-- Where `void` is recorded for the second branch of a conditional expression only with the first
one, the setting is firm. -/
theorem Loaded.firm (L : Loaded natives p s₀ s) (hn : natives.Registered)
    (h : ∀ b ∈ s.branchTypes, b.2 = some .void → b.1 = some .void) :
    Setting.Firm ⟨false, natives, p, 0⟩ := by
  refine ⟨hn, L.wellTyped, ?_⟩
  intro k Γ c y n sp t hk hy hn'
  exact Option.some.inj (h _ (L.mem_branchTypes hk hy hn') rfl)

/-- Let a program be loaded without diagnostics, and let no conditional expression have a void second
branch beside a first branch of another type. Then no evaluation stores or passes a void value. -/
theorem evaluation_solid (hn : natives.Registered)
    (hload : load source filename (start natives host context time) = (.ok (), s))
    (hd : s.diagnostics = [])
    (hbranches : ∀ b ∈ s.branchTypes, b.2 = some .void → b.1 = some .void) (hs : s.Continues t)
    (name : Option String) (limits : Limits) :
    ∃ p, s.program = some p ∧ t.StaysSolid p limits ∧ (evaluate name limits t).2.arena.Solid := by
  obtain ⟨p, s₀, -, -, L⟩ := loaded_of_load hn hload hd
  have hw := L.sound hn
  have hfirm := L.firm hn hbranches
  have hloaded : s.arena.All (Setting.Solid ⟨false, natives, p, 0⟩) := by
    obtain ⟨fs, hfs, H⟩ := L.holds
    have hG := Setting.solid_globalSymbols (w := ⟨false, natives, p, 0⟩) hn L.wellTyped hfs
    exact H.all hG (List.forall_mem_nil _)
  have R := L.ready hn false
  have H := R.continues_solid hw hfirm hloaded hs
  obtain ⟨hend, hevents⟩ := (R.continues hw hs).evaluate_solid hw hfirm H name limits
  obtain ⟨-, -, -, -, -, hgood⟩ := (R.continues hw hs).evaluate hw name limits
  refine ⟨p, L.program_eq, ⟨fun ev hev => (hevents ev hev).solid, ?_⟩, hend.solid⟩
  intro d hd' ev hev n hmoment hindex q hq
  obtain ⟨value, hvalue⟩ := (hgood ev hev).lookup_param L.wellTyped hd' hindex hmoment hq
  exact ⟨value, hvalue, (hevents ev hev).solid.lookup_ne_void hvalue⟩

/-- A program that stores and passes a text where the rules promise a number. -/
def mixedCallSource : String :=
  "let x = false ? 1 : \"a\"; void show(int n) print(n); show(x);"

/-- None of the variables of this program is void at any of the events that there are. -/
theorem evaluation_solid_mixed :
    ∃ s p, load mixedCallSource none (start Console.natives {} none "") = (.ok (), s) ∧
      s.diagnostics = [] ∧ s.branchTypes = [(some .int, some .string)] ∧ s.program = some p ∧
      s.evaluation ⟨2, 2⟩ ≠ [] ∧ s.StaysSolid p ⟨2, 2⟩ := by
  obtain ⟨s, hload, hd, hbranches, hevents⟩ : ∃ s,
      load mixedCallSource none (start Console.natives {} none "") = (.ok (), s) ∧
      s.diagnostics = [] ∧ s.branchTypes = [(some .int, some .string)] ∧
      (s.evaluation ⟨2, 2⟩).isEmpty = false := exists_of_quiet_and (by decide +kernel)
  have hvoid : ∀ b ∈ s.branchTypes, b.2 = some .void → b.1 = some .void := by
    rw [hbranches]
    decide
  obtain ⟨p, hp, hsolid, -⟩ := evaluation_solid Console.natives_registered hload hd hvoid .refl
    none ⟨2, 2⟩
  exact ⟨s, p, hload, hd, hbranches, hp, List.isEmpty_eq_false_iff.mp hevents, hsolid⟩

/-- A program whose check takes a void value for a number. -/
def voidCallSource : String :=
  "let x = false ? 1 : print(\"a\"); void show(int n) print(n + 1); show(x);"

/-- It is loaded without diagnostics. Yet `x` is void after its declaration, and so is the parameter
that it is passed to. -/
theorem evaluation_solid_fails :
    ∃ s, load voidCallSource none (start Console.natives {} none "") = (.ok (), s) ∧
      s.diagnostics = [] ∧
      ∀ x ∈ ["x", "n"], ∃ ev ∈ s.evaluation ⟨2, 2⟩,
        (Run.lookup x ev.machine).1 = .ok .void ∧ ¬ ev.machine.arena.Solid := by
  obtain ⟨s, hload, hd, hfound⟩ : ∃ s,
      load voidCallSource none (start Console.natives {} none "") = (.ok (), s) ∧
      s.diagnostics = [] ∧ ∀ x ∈ ["x", "n"], (s.evaluation ⟨2, 2⟩).any (fun ev =>
        (Run.lookup x ev.machine).1.toOption.map Value.ty = some .void) = true :=
    exists_of_quiet_and (by decide +kernel)
  refine ⟨s, hload, hd, fun x hx => ?_⟩
  obtain ⟨ev, hev, htest⟩ := List.any_eq_true.mp (hfound x hx)
  cases hlookup : (Run.lookup x ev.machine).1 with
  | error e => simp [hlookup, Except.toOption] at htest
  | ok value =>
      have hvoid : value.ty = .void := by simpa [hlookup, Except.toOption] using htest
      have hnot : ¬ ev.machine.arena.Solid := fun H => H.lookup_ne_void hlookup hvoid
      cases value with
      | void => exact ⟨ev, hev, hlookup, hnot⟩
      | _ => cases hvoid

end Session

end Pigeon
