import Pigeon.Proofs.Native.Installed

/-!
# Registries stay consistent

A registration adds one native and takes its name, or it fails and changes nothing; it succeeds if
the native fits and its name is new (`Natives.Accepts`). `Natives.registerAll` registers natives one
after the other, whatever the outcome of each. What it leaves is a registry of distinct names that
can be installed in a new global scope. `Natives.Stands` says that the natives lie in that scope as
they were installed there, up to the values of the variables. Every operation on the arena and every
reset preserves that (`Natives.Stands.step`, `Natives.Stands.run`), so that a reset finds each
variable and gives it its first value again. `Natives.registry_consistent` puts these together.
-/

namespace Pigeon

/-! ## Sequences of registrations -/

/-- Registers a variable or a function. -/
def Registration.add : NativeVariable ⊕ NativeFunction → Registration Unit :=
  Sum.elim addVariable addFunction

/-- The natives after registrations one after the other. One that fails does not stop the rest. -/
def Natives.registerAll (n : Natives) : List (NativeVariable ⊕ NativeFunction) → Natives
  | [] => n
  | call :: calls => Natives.registerAll (Registration.add call n).2 calls

namespace Natives

/-- The native fits, and its name is new. -/
def Accepts (n : Natives) : NativeVariable ⊕ NativeFunction → Prop
  | .inl v => v.Fits ∧ v.name ∉ n.claimed
  | .inr f => f.Fits ∧ f.name ∉ n.claimed

/-- The registry with one more native, whose name is taken now. -/
def extend (n : Natives) : NativeVariable ⊕ NativeFunction → Natives
  | .inl v => { n with vars := n.vars ++ [v], claimed := n.claimed ++ [v.name] }
  | .inr f => { n with funcs := n.funcs ++ [f], claimed := n.claimed ++ [f.name] }

variable {n : Natives} {g : Handle} {t : Tenants} {call : NativeVariable ⊕ NativeFunction}

/-- A native that fits is added under a new name. -/
theorem Accepts.add_eq (h : n.Accepts call) :
    Registration.add call n = (.ok (), n.extend call) := by
  cases call with
  | inl v => exact Registration.addVariable_eq h.1 h.2
  | inr f => exact Registration.addFunction_eq h.1 h.2

/-- A native that does not fit or has no new name is refused. -/
theorem add_eq_of_not_accepts (h : ¬ n.Accepts call) :
    ∃ e, Registration.add call n = (.error e, n) := by
  cases call with
  | inl v =>
      obtain ⟨e, heq⟩ | ⟨hfits, hname, -⟩ := Registration.addVariable_cases v n
      · exact ⟨e, heq⟩
      · exact absurd ⟨hfits, hname⟩ h
  | inr f =>
      obtain ⟨e, heq⟩ | ⟨hfits, hname, -⟩ := Registration.addFunction_cases f n
      · exact ⟨e, heq⟩
      · exact absurd ⟨hfits, hname⟩ h

/-- A registration succeeds if and only if the native is accepted. -/
theorem add_eq_ok_iff : (Registration.add call n).1 = .ok () ↔ n.Accepts call := by
  constructor
  · intro hok
    by_contra h
    obtain ⟨e, heq⟩ := add_eq_of_not_accepts h
    rw [heq] at hok
    cases hok
  · intro h
    rw [h.add_eq]

/-- A registration that fails changes nothing. -/
theorem add_error {e : Failure} (herror : (Registration.add call n).1 = .error e) :
    (Registration.add call n).2 = n := by
  by_cases h : n.Accepts call
  · rw [h.add_eq] at herror
    cases herror
  · obtain ⟨e', heq⟩ := add_eq_of_not_accepts h
    rw [heq]

/-- One more native leaves a registry that was filled by registrations. -/
theorem Registered.extend (h : n.Registered) (ha : n.Accepts call) :
    (n.extend call).Registered := by
  have heq := ha.add_eq
  cases call with
  | inl v =>
      have hok : n.registerVariable v.ty v.name v.readOnly v.initial = .ok (n.extend (.inl v)) := by
        rw [registerVariable, after, show Registration.addVariable v n = _ from heq]
      exact .var h hok
  | inr f =>
      have hok : n.registerFunction f.returns f.name f.callback f.params =
          .ok (n.extend (.inr f)) := by
        rw [registerFunction, after, show Registration.addFunction f n = _ from heq]
      exact .func h hok

/-- Whatever its outcome, a registration leaves a registry that was filled by registrations. -/
theorem Registered.add (h : n.Registered) (call : NativeVariable ⊕ NativeFunction) :
    (Registration.add call n).2.Registered := by
  by_cases ha : n.Accepts call
  · rw [ha.add_eq]
    exact h.extend ha
  · obtain ⟨e, heq⟩ := add_eq_of_not_accepts ha
    rw [heq]
    exact h

/-- Registrations one after the other leave a registry that was filled by registrations. -/
theorem Registered.registerAll (h : n.Registered)
    (calls : List (NativeVariable ⊕ NativeFunction)) : (n.registerAll calls).Registered := by
  induction calls generalizing n with
  | nil => exact h
  | cons call calls ih => exact ih (h.add call)

/-! ## What happens after the installation -/

/-- What can happen after natives were installed: an operation on global scopes and frames, such as
an assignment, or a reset of the natives. -/
inductive Op where
  | tenants (op : TenantOp)
  | reset

/-- The tenants after an operation, where the natives are installed in the global scope `g`. -/
def stepIn (n : Natives) (g : Handle) (t : Tenants) : Op → Tenants
  | .tenants op => (t.step op).2
  | .reset => { t with arena := (n.reset g t.arena).2 }

/-- The tenants after several operations. -/
def runIn (n : Natives) (g : Handle) (t : Tenants) : List Op → Tenants
  | [] => t
  | op :: ops => n.runIn g (n.stepIn g t op) ops

/-- The natives stand in the global scope `g` of the tenants, the variables perhaps with other
values. -/
structure Stands (n : Natives) (g : Handle) (t : Tenants) : Prop where
  settled : t.Settled
  global : g ∈ t.globals
  kept : ∀ s ∈ n.symbols, Tenants.Keeps t.arena g s

/-- A reset gives the native variables in the global scope `g` the symbols that they had in the
first arena, and it changes no other symbol. -/
def Restores (n : Natives) (g : Handle) (first a : Arena) : Prop :=
  ∃ a', n.reset g a = (.ok (), a') ∧
    (∀ v ∈ n.vars, a'.symbol? v.name g = first.symbol? v.name g) ∧
    ∀ h name, (h = g → name ∉ n.vars.map (·.name)) → a'.symbol? name h = a.symbol? name h

namespace Stands

/-- The global scope is alive. -/
theorem live (T : n.Stands g t) : ∃ c, t.arena.slots[g]? = some (some c) :=
  (T.settled.tracks.live_iff g).mp (Tenants.Settled.mem_live_of_mem_globals T.global)

/-- A reset succeeds and stores the symbols of the native variables. -/
theorem reset_eq (hn : n.Registered) (T : n.Stands g t) :
    n.reset g t.arena = (.ok (), t.arena.storeAll g (n.vars.map (·.symbol))) := by
  refine resetAll_store (List.Nodup.of_append_left hn.names_nodup) fun v hv =>
    ⟨hn.vars_fit v hv, ?_⟩
  exact T.kept v.symbol (List.mem_append_left _ (List.mem_map_of_mem hv))

/-- A reset gives the native variables their symbols, and nothing else changes. -/
theorem symbol?_reset (hn : n.Registered) (T : n.Stands g t) :
    (∀ v ∈ n.vars, (n.reset g t.arena).2.symbol? v.name g = some v.symbol) ∧
      ∀ h name, (h = g → name ∉ n.vars.map (·.name)) →
        (n.reset g t.arena).2.symbol? name h = t.arena.symbol? name h := by
  have hnames : (n.vars.map (·.symbol)).map Symbol.name = n.vars.map (·.name) := by
    rw [List.map_map]
    rfl
  have hnodup : ((n.vars.map (·.symbol)).map Symbol.name).Nodup := by
    rw [hnames]
    exact List.Nodup.of_append_left hn.names_nodup
  obtain ⟨hset, hother⟩ := Arena.symbol?_storeAll T.live hnodup
  rw [T.reset_eq hn]
  refine ⟨fun v hv => hset v.symbol (List.mem_map_of_mem hv), fun h name hname => ?_⟩
  rw [hnames] at hother
  exact hother name h hname

/-- Every operation leaves the natives where they stand. -/
theorem step (hn : n.Registered) (T : n.Stands g t) (op : Op) : n.Stands g (n.stepIn g t op) := by
  cases op with
  | tenants op =>
      exact ⟨(T.settled.step op).2.1, Tenants.mem_globals_step T.global op,
        fun s hs => T.settled.step_keeps T.global op (T.kept s hs)⟩
  | reset =>
      obtain ⟨hset, hother⟩ := T.symbol?_reset hn
      refine ⟨?_, T.global, fun s hs => ?_⟩
      · show Tenants.Settled { t with arena := (n.reset g t.arena).2 }
        rw [T.reset_eq hn]
        exact T.settled.storeAll g _
      · obtain hv | hf := List.mem_append.mp hs
        · obtain ⟨v, hmem, rfl⟩ := List.mem_map.mp hv
          exact ⟨v.symbol, hset v hmem, rfl⟩
        · -- the name of a function is not that of a variable
          obtain ⟨f, hmem, rfl⟩ := List.mem_map.mp hf
          refine (T.kept _ hs).congr (hother g _ fun _ hvar => ?_)
          have hdisj := (List.nodup_append.mp hn.names_nodup).2.2
          exact hdisj _ hvar f.name (List.mem_map_of_mem hmem) rfl

/-- Operations one after another leave the natives where they stand. -/
theorem run (hn : n.Registered) (T : n.Stands g t) (ops : List Op) :
    n.Stands g (n.runIn g t ops) := by
  induction ops generalizing t with
  | nil => exact T
  | cons op ops ih => exact ih (T.step hn op)

end Stands

/-- Registered natives can be installed in a new global scope, and then they stand there. -/
theorem Registered.install_newGlobal (hn : n.Registered) (S : t.Settled) :
    let g := (t.arena.newScope none).1
    ∃ a, n.install g (t.arena.newScope none).2 = (.ok (), a) ∧ a.globals g = .ok n.symbols ∧
      n.Stands g ⟨a, t.globals ++ [g], t.frames⟩ ∧
      ∀ v ∈ n.vars, a.symbol? v.name g = some v.symbol := by
  intro g
  obtain ⟨-, hnew, -⟩ := Arena.newScope_slots none fun h hh => (S.tracks.free_iff h).mp hh
  have hnodup : (n.symbols.map Symbol.name).Nodup := by
    rw [n.map_name_symbols]
    exact hn.names_nodup
  have hfresh : ∀ s ∈ n.symbols, (t.arena.newScope none).2.symbol? s.name g = none := by
    intro s _
    rw [Arena.symbol?_of_slot hnew]
    rfl
  have hslot := Arena.slots_storeAll hnew hnodup hfresh
  obtain ⟨hset, -⟩ := Arena.symbol?_storeAll ⟨_, hnew⟩ hnodup
  refine ⟨(t.arena.newScope none).2.storeAll g n.symbols, ?_, ?_, ?_, fun v hv => ?_⟩
  · rw [install_eq hn.vars_fit]
    exact declareAll_eq ⟨_, hnew⟩ hnodup hfresh
  · exact Arena.globals_of_slot hslot
  · obtain ⟨a, gs, F⟩ := t
    exact ⟨S.newGlobal.storeAll g _, by simp, fun s hs => ⟨s, hset s hs, rfl⟩⟩
  · exact hset v.symbol (List.mem_append_left _ (List.mem_map_of_mem hv))

/-- A registry stays consistent. A registration that fails changes nothing. It succeeds if and only
if the native fits and has a new name, and then it adds this native and takes its name. The names
that are taken are distinct and the names of the natives, every variable has a type for variables,
to which its data converts, and every function has types that are allowed in their places. Installed
in a new global scope, the natives become all of its symbols. From then on, whatever happens to the
scopes, a reset gives the native variables what they had when they were installed, and it changes no
other symbol. -/
theorem registry_consistent (calls : List (NativeVariable ⊕ NativeFunction)) :
    let n : Natives := registerAll {} calls
    (∀ call e, (Registration.add call n).1 = .error e → (Registration.add call n).2 = n) ∧
    (∀ call, (Registration.add call n).1 = .ok () ↔ n.Accepts call) ∧
    (∀ call, (Registration.add call n).1 = .ok () →
      (Registration.add call n).2 = n.extend call) ∧
    n.claimed.Perm n.names ∧ n.names.Nodup ∧
    (∀ v ∈ n.vars, v.ty ≠ .void ∧ v.ty ≠ .any ∧ ∃ value, v.initial.toValue v.ty = .ok value) ∧
    (∀ f ∈ n.funcs, f.returns ≠ .any ∧ .void ∉ f.params) ∧
    ∀ before : List TenantOp,
      let t := (Tenants.run {} before).2
      let g := (t.arena.newScope none).1
      ∃ a, n.install g (t.arena.newScope none).2 = (.ok (), a) ∧
        a.globals g = .ok n.symbols ∧ n.symbols.map Symbol.name = n.names ∧
        ∀ after, n.Restores g a (n.runIn g ⟨a, t.globals ++ [g], t.frames⟩ after).arena := by
  intro n
  have hn : n.Registered := Registered.empty.registerAll calls
  have hextends (call : NativeVariable ⊕ NativeFunction)
      (hok : (Registration.add call n).1 = .ok ()) :
      (Registration.add call n).2 = n.extend call := by
    rw [(add_eq_ok_iff.mp hok).add_eq]
  refine ⟨fun _ _ => add_error, fun _ => add_eq_ok_iff, hextends, hn.claimed_perm, hn.names_nodup,
    hn.vars_fit, hn.funcs_fit, ?_⟩
  intro before t g
  have S : t.Settled := (Tenants.Settled.start.run before).2
  obtain ⟨a, hinstall, hglobals, T, hfirst⟩ := hn.install_newGlobal S
  refine ⟨a, hinstall, hglobals, n.map_name_symbols, fun after => ?_⟩
  have T' := T.run hn after
  obtain ⟨hset, hother⟩ := T'.symbol?_reset hn
  rw [T'.reset_eq hn] at hset hother
  exact ⟨_, T'.reset_eq hn, fun v hv => (hset v hv).trans (hfirst v hv).symm, hother⟩

end Natives

end Pigeon
