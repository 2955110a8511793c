import Pigeon.Native.Console
import Pigeon.Proofs.Step
import Pigeon.Proofs.Scope.Frame

/-!
# Registered natives

A host fills its registry by registering variables and functions one after the other. A
registration adds a native that fits under a new name, or it fails and adds nothing.
`Natives.Registered` says that a registry was filled in this way. Its names are then distinct and
the ones that are taken, the data of a variable becomes a value of the type of the variable, and no
native has a type that its place does not allow. Installed into a global scope without symbols,
such a registry becomes the symbols of that scope.
-/

namespace Pigeon

/-- A payload that fits a type becomes a value of that type. -/
theorem Payload.ty_of_toValue {p : Payload} {t : Ty} {v : Value} (h : p.toValue t = .ok v) :
    v.ty = t := by
  unfold Payload.toValue at h
  split at h
  · split at h
    · cases h
      assumption
    · cases h
  · cases h
    rfl
  · cases h
  · cases h
    rfl
  · split at h
    · cases h
      rfl
    · cases h
  · cases h
    rfl
  · cases h
    rfl
  · cases h
    rfl
  · cases h

/-- A native variable whose data becomes a value of its type, which is a type for a variable. -/
def NativeVariable.Fits (v : NativeVariable) : Prop :=
  v.ty ≠ .void ∧ v.ty ≠ .any ∧ ∃ value, v.initial.toValue v.ty = .ok value

/-- A native function whose types are allowed in their places. -/
def NativeFunction.Fits (f : NativeFunction) : Prop :=
  f.returns ≠ .any ∧ .void ∉ f.params

/-- A variable that fits has a first value of its type, and its symbol has that value. -/
theorem NativeVariable.Fits.first {v : NativeVariable} (h : v.Fits) :
    ∃ value, v.first = .ok value ∧ value.ty = v.ty ∧
      v.symbol = .var ⟨v.name, some v.ty, v.readOnly, some value⟩ := by
  obtain ⟨-, -, value, hvalue⟩ := h
  have hfirst : v.first = .ok value := by
    rw [NativeVariable.first, hvalue]
    rfl
  refine ⟨value, hfirst, Payload.ty_of_toValue hvalue, ?_⟩
  rw [NativeVariable.symbol, hfirst]
  rfl

/-- The first value of a variable comes from its data. -/
theorem NativeVariable.toValue_of_first {v : NativeVariable} {value : Value}
    (h : v.first = .ok value) : v.initial.toValue v.ty = .ok value := by
  rw [NativeVariable.first] at h
  cases hvalue : v.initial.toValue v.ty with
  | error e => rw [hvalue] at h; cases h
  | ok w => rw [hvalue] at h; cases h; rfl

namespace Registration

/-! ## Registrations -/

variable {n : Natives} {name : String}

/-- Claiming a name that is taken fails and claims nothing. -/
theorem claim_taken (h : name ∈ n.claimed) :
    claim name n = (.error (.argument (.alreadyRegistered name)), n) := by
  rw [claim, Step.bind_ok (Step.get_apply n), if_pos (by simpa using h), Step.throw_apply]

/-- Claiming a new name puts it behind those that are claimed. -/
theorem claim_new (h : name ∉ n.claimed) :
    claim name n = (.ok (), { n with claimed := n.claimed ++ [name] }) := by
  rw [claim, Step.bind_ok (Step.get_apply n), if_neg (by simpa using h), Step.modify_apply]

/-- A registration of a variable fails and adds nothing, or it adds a variable that fits under a
new name. -/
theorem addVariable_cases (v : NativeVariable) (n : Natives) :
    (∃ e, addVariable v n = (.error e, n)) ∨
    (v.Fits ∧ v.name ∉ n.claimed ∧ addVariable v n =
      (.ok (), { n with vars := n.vars ++ [v], claimed := n.claimed ++ [v.name] })) := by
  unfold addVariable
  split
  · exact .inl ⟨_, rfl⟩
  · next hty =>
      simp only [Bool.or_eq_true, decide_eq_true_eq, not_or] at hty
      cases hfirst : v.first with
      | error e => exact .inl ⟨e, rfl⟩
      | ok value =>
          by_cases hname : v.name ∈ n.claimed
          · exact .inl ⟨_, Step.bind_error (claim_taken hname)⟩
          · exact .inr ⟨⟨hty.1, hty.2, value, v.toValue_of_first hfirst⟩, hname,
              Step.bind_ok (claim_new hname)⟩

/-- A registration of a function fails and adds nothing, or it adds a function whose types are
allowed under a new name. -/
theorem addFunction_cases (f : NativeFunction) (n : Natives) :
    (∃ e, addFunction f n = (.error e, n)) ∨
    (f.Fits ∧ f.name ∉ n.claimed ∧ addFunction f n =
      (.ok (), { n with funcs := n.funcs ++ [f], claimed := n.claimed ++ [f.name] })) := by
  unfold addFunction
  split
  · exact .inl ⟨_, rfl⟩
  · next hreturns =>
      split
      · exact .inl ⟨_, rfl⟩
      · next hparams =>
          by_cases hname : f.name ∈ n.claimed
          · exact .inl ⟨_, Step.bind_error (claim_taken hname)⟩
          · exact .inr ⟨⟨hreturns, by simpa using hparams⟩, hname, Step.bind_ok (claim_new hname)⟩

/-- A variable that fits is added under a new name. -/
theorem addVariable_eq {v : NativeVariable} (hfits : v.Fits) (hname : v.name ∉ n.claimed) :
    addVariable v n =
      (.ok (), { n with vars := n.vars ++ [v], claimed := n.claimed ++ [v.name] }) := by
  obtain ⟨value, hfirst, -⟩ := hfits.first
  unfold addVariable
  rw [if_neg (by simpa using ⟨hfits.1, hfits.2.1⟩), hfirst]
  exact Step.bind_ok (claim_new hname)

/-- A function whose types are allowed is added under a new name. -/
theorem addFunction_eq {f : NativeFunction} (hfits : f.Fits) (hname : f.name ∉ n.claimed) :
    addFunction f n =
      (.ok (), { n with funcs := n.funcs ++ [f], claimed := n.claimed ++ [f.name] }) := by
  unfold addFunction
  rw [if_neg hfits.1, if_neg (by simpa using hfits.2)]
  exact Step.bind_ok (claim_new hname)

end Registration

/-! ## Registries -/

/-- The registry was filled by registering natives one after the other. -/
inductive Natives.Registered : Natives → Prop
  | empty : Registered {}
  | var {n n' : Natives} {ty : Ty} {name : String} {readOnly : Bool} {initial : Payload} :
      Registered n → n.registerVariable ty name readOnly initial = .ok n' → Registered n'
  | func {n n' : Natives} {returns : Ty} {name : String} {callback : Callback}
      {params : List Ty} :
      Registered n → n.registerFunction returns name callback params = .ok n' → Registered n'

namespace Natives

/-- What a registration of a variable adds. -/
theorem registerVariable_ok {n n' : Natives} {ty : Ty} {name : String} {readOnly : Bool}
    {initial : Payload} (h : n.registerVariable ty name readOnly initial = .ok n') :
    ∃ v : NativeVariable, v.Fits ∧ v.name ∉ n.claimed ∧
      n' = { n with vars := n.vars ++ [v], claimed := n.claimed ++ [v.name] } := by
  unfold registerVariable after at h
  obtain ⟨e, heq⟩ | ⟨hfits, hname, heq⟩ :=
    Registration.addVariable_cases ⟨ty, name, readOnly, initial⟩ n
  · rw [heq] at h
    cases h
  · rw [heq] at h
    cases h
    exact ⟨_, hfits, hname, rfl⟩

/-- What a registration of a function adds. -/
theorem registerFunction_ok {n n' : Natives} {returns : Ty} {name : String} {callback : Callback}
    {params : List Ty} (h : n.registerFunction returns name callback params = .ok n') :
    ∃ f : NativeFunction, f.Fits ∧ f.name ∉ n.claimed ∧
      n' = { n with funcs := n.funcs ++ [f], claimed := n.claimed ++ [f.name] } := by
  unfold registerFunction after at h
  obtain ⟨e, heq⟩ | ⟨hfits, hname, heq⟩ :=
    Registration.addFunction_cases ⟨returns, name, callback, params⟩ n
  · rw [heq] at h
    cases h
  · rw [heq] at h
    cases h
    exact ⟨_, hfits, hname, rfl⟩

namespace Registered

variable {n : Natives}

/-- The names that are taken are the names of the natives. -/
theorem claimed_perm (h : n.Registered) : n.claimed.Perm n.names := by
  induction h with
  | empty => exact .nil
  | var _ hok ih =>
      obtain ⟨v, -, -, rfl⟩ := registerVariable_ok hok
      simp only [names, List.map_append, List.map_cons, List.map_nil] at ih ⊢
      rw [List.append_assoc]
      exact (List.perm_append_singleton _ _).trans ((ih.cons _).trans List.perm_middle.symm)
  | func _ hok ih =>
      obtain ⟨f, -, -, rfl⟩ := registerFunction_ok hok
      simp only [names, List.map_append, List.map_cons, List.map_nil] at ih ⊢
      rw [← List.append_assoc]
      exact ih.append_right _

/-- The names that are taken are distinct. -/
theorem claimed_nodup (h : n.Registered) : n.claimed.Nodup := by
  induction h with
  | empty => exact .nil
  | var _ hok ih =>
      obtain ⟨v, -, hnew, rfl⟩ := registerVariable_ok hok
      exact (List.perm_append_singleton _ _).nodup_iff.mpr (List.nodup_cons.mpr ⟨hnew, ih⟩)
  | func _ hok ih =>
      obtain ⟨f, -, hnew, rfl⟩ := registerFunction_ok hok
      exact (List.perm_append_singleton _ _).nodup_iff.mpr (List.nodup_cons.mpr ⟨hnew, ih⟩)

/-- Registered names are distinct. -/
theorem names_nodup (h : n.Registered) : n.names.Nodup :=
  h.claimed_perm.nodup_iff.mp h.claimed_nodup

/-- The data of a registered variable fits its type. -/
theorem vars_fit (h : n.Registered) : ∀ v ∈ n.vars, v.Fits := by
  induction h with
  | empty => simp
  | var _ hok ih =>
      obtain ⟨v, hfits, -, rfl⟩ := registerVariable_ok hok
      simp only [List.mem_append, List.mem_singleton]
      rintro w (hw | rfl)
      · exact ih w hw
      · exact hfits
  | func _ hok ih =>
      obtain ⟨f, -, -, rfl⟩ := registerFunction_ok hok
      exact ih

/-- The types of a registered function are allowed in their places. -/
theorem funcs_fit (h : n.Registered) : ∀ f ∈ n.funcs, f.Fits := by
  induction h with
  | empty => simp
  | var _ hok ih =>
      obtain ⟨v, -, -, rfl⟩ := registerVariable_ok hok
      exact ih
  | func _ hok ih =>
      obtain ⟨f, hfits, -, rfl⟩ := registerFunction_ok hok
      simp only [List.mem_append, List.mem_singleton]
      rintro w (hw | rfl)
      · exact ih w hw
      · exact hfits

end Registered

end Natives

/-- Functions with distinct names whose types are allowed can be registered one after the other. -/
theorem Natives.registered_funcs {fs : List NativeFunction} (hnodup : (fs.map (·.name)).Nodup)
    (hfits : ∀ f ∈ fs, f.Fits) :
    Natives.Registered { funcs := fs, claimed := fs.map (·.name) } := by
  induction fs using List.reverseRecOn with
  | nil => exact .empty
  | append_singleton fs f ih =>
      rw [List.map_append, List.map_singleton, List.nodup_append] at hnodup
      obtain ⟨hnodup, -, hdisj⟩ := hnodup
      have hnew : f.name ∉ fs.map (·.name) := fun hmem => hdisj _ hmem f.name (by simp) rfl
      have hok : Natives.registerFunction { funcs := fs, claimed := fs.map (·.name) }
          f.returns f.name f.callback f.params =
          .ok { funcs := fs ++ [f], claimed := (fs ++ [f]).map (·.name) } := by
        rw [registerFunction, after, Registration.addFunction_eq (hfits f (by simp)) hnew,
          List.map_append, List.map_singleton]
      exact .func (ih hnodup fun f' hf' => hfits f' (by simp [hf'])) hok

theorem Console.natives_registered : Console.natives.Registered :=
  Natives.registered_funcs (by decide) fun f hf => by
    simp only [List.mem_cons, List.not_mem_nil, or_false] at hf
    rcases hf with rfl | rfl | rfl | rfl | rfl
    all_goals exact ⟨by simp, by simp⟩

/-! ## Natives that behave -/

/-- The answer of a native function is data that fits the type, or a failure at run time. -/
inductive Ty.Answered (t : Ty) : Except Failure Payload → Prop
  | ok {payload : Payload} {v : Value} : payload.toValue t = .ok v → Answered t (.ok payload)
  | failed {cause : RuntimeCause} {sp : Option Span} : Answered t (.error (.runtime cause sp))

/-- Called with arguments that its parameters accept, the native function gives data that fits its
result type, or fails at run time. -/
def NativeFunction.Behaves (f : NativeFunction) : Prop :=
  ∀ args host, List.Forall₂ (fun p (v : Value) => Ty.accepts p v.ty = true) f.params args →
    f.returns.Answered (f.callback args host).1

namespace Console

/-- Printing gives nothing, which is what its signature says. -/
theorem print_behaves (name : String) : NativeFunction.Behaves ⟨.void, name, print, [.any]⟩ := by
  intro args host hargs
  cases hargs with
  | cons _ hnil =>
      cases hnil
      exact .ok rfl

/-- A prompt behaves if its reader does. -/
theorem prompting_behaves {returns : Ty} (name : String) {read : String → Except Failure Payload}
    (hread : ∀ line, returns.Answered (read line)) :
    NativeFunction.Behaves ⟨returns, name, prompting read, [.string]⟩ := by
  intro args host hargs
  cases hargs with
  | cons _ hnil =>
      cases hnil
      exact hread _

/-- Reading an integer gives one or fails. -/
theorem readInt_answered (line : String) : Ty.Answered .int (readInt line) := by
  unfold readInt
  cases Numeral.readInt (trimmed line) with
  | ok n => exact .ok rfl
  | error e => exact .failed

/-- Reading a float gives one or fails. -/
theorem readFloat_answered (line : String) : Ty.Answered .float (readFloat line) := by
  unfold readFloat
  cases Numeral.readFloat (trimmed line) with
  | ok x => exact .ok rfl
  | error e => exact .failed

/-- Reading a Boolean gives one or fails. -/
theorem readBool_answered (line : String) : Ty.Answered .bool (readBool line) := by
  unfold readBool
  split
  · exact .ok rfl
  · exact .ok rfl
  · exact .failed

/-- The natives of the console behave. -/
theorem natives_behave : ∀ f ∈ natives.funcs, f.Behaves := by
  intro f hf
  simp only [natives, List.mem_cons, List.not_mem_nil, or_false] at hf
  rcases hf with rfl | rfl | rfl | rfl | rfl
  · exact print_behaves _
  · exact prompting_behaves _ fun _ => .ok rfl
  · exact prompting_behaves _ readInt_answered
  · exact prompting_behaves _ readFloat_answered
  · exact prompting_behaves _ readBool_answered

end Console

/-! ## Installed natives -/

/-- Symbols under their names. -/
def Symbol.named (symbols : List Symbol) : Symbols := symbols.map fun s => (s.name, s)

namespace Arena

variable {a : Arena} {g : Handle} {G : Symbols} {F : List Blocks}

/-- A symbol is declared in a global scope unless its name has one there. -/
theorem declareGlobal_eq {c : Scope} (hc : a.slots[g]? = some (some c)) (s : Symbol) :
    a.declareGlobal g s =
      match c.symbols.find? s.name with
      | none => .ok (a.store g s.name s)
      | some _ => .error (.scope (.duplicateGlobal s.name)) := by
  rw [declareGlobal, containsGlobal, put, get_eq_ok hc]
  show (if c.symbols.contains s.name = true then _ else _) = _
  cases hfind : c.symbols.find? s.name with
  | none =>
      rw [(Symbols.contains_eq_false_iff _ _).mpr hfind]
      rfl
  | some t =>
      rw [(Symbols.contains_iff _ _).mpr ⟨t, hfind⟩]
      rfl

/-- A symbol with a new name is stored after the other symbols of a global scope. -/
theorem declareGlobal_new (H : a.Holds g G F) {s : Symbol} (hnew : Symbols.find? G s.name = none) :
    ∃ a', a.declareGlobal g s = .ok a' ∧ a'.Holds g (G ++ [(s.name, s)]) F := by
  have hstore := H.store_global s.name s
  rw [Symbols.insert_of_find?_eq_none _ hnew] at hstore
  refine ⟨a.store g s.name s, ?_, hstore⟩
  rw [declareGlobal_eq H.root, hnew]

/-- A name that a global scope has already cannot be declared there. -/
theorem declareGlobal_taken (H : a.Holds g G F) {s t : Symbol}
    (htaken : Symbols.find? G s.name = some t) :
    a.declareGlobal g s = .error (.scope (.duplicateGlobal s.name)) := by
  rw [declareGlobal_eq H.root, htaken]

end Arena

namespace Natives

section

variable {α β : Type} {g : Handle} {n : Natives}

/-- Changes that agree on the members of a list. -/
theorem changeAll_congr {change change' : α → Arena → Except Failure Arena} {xs : List α}
    (h : ∀ x ∈ xs, change x = change' x) (a : Arena) :
    changeAll change xs a = changeAll change' xs a := by
  induction xs generalizing a with
  | nil => rfl
  | cons x rest ih =>
      rw [changeAll, changeAll, h x (by simp)]
      split
      · exact ih (fun y hy => h y (by simp [hy])) _
      · rfl

theorem changeAll_map (change : α → Arena → Except Failure Arena) (f : β → α) (xs : List β)
    (a : Arena) : changeAll change (xs.map f) a = changeAll (fun x => change (f x)) xs a := by
  induction xs generalizing a with
  | nil => rfl
  | cons x rest ih =>
      rw [List.map_cons, changeAll, changeAll]
      split
      · exact ih _
      · rfl

/-- Changes in a row are the first ones and then, if none has failed, the others. -/
theorem changeAll_append (change : α → Arena → Except Failure Arena) (xs ys : List α)
    (a : Arena) : changeAll change (xs ++ ys) a = match changeAll change xs a with
      | (.ok (), a) => changeAll change ys a
      | (.error e, a) => (.error e, a) := by
  induction xs generalizing a with
  | nil => rfl
  | cons x rest ih =>
      rw [List.cons_append, changeAll, changeAll]
      split
      · exact ih _
      · rfl

/-- Variables that fit are declared as their symbols. -/
theorem install_eq (hfits : ∀ v ∈ n.vars, v.Fits) (a : Arena) :
    n.install g a = declareAll g n.symbols a := by
  have hdeclare : ∀ v ∈ n.vars, declareVariable g v = fun a => a.declareGlobal g v.symbol := by
    intro v hv
    obtain ⟨value, hvalue, -, -⟩ := (hfits v hv).first
    funext a
    rw [declareVariable, hvalue]
    rfl
  rw [install, changeAll_congr hdeclare, declareAll, symbols, changeAll_append, changeAll_map]
  rfl

end

/-- Symbols with distinct new names are all declared. -/
theorem declareAll_ok {a : Arena} {g : Handle} {G : Symbols} {F : List Blocks}
    (symbols : List Symbol) (H : a.Holds g G F) (hnodup : (symbols.map Symbol.name).Nodup)
    (hnew : ∀ s ∈ symbols, Symbols.find? G s.name = none) :
    ∃ a', declareAll g symbols a = (.ok (), a') ∧ a'.Holds g (G ++ Symbol.named symbols) F := by
  induction symbols generalizing a G with
  | nil => exact ⟨a, rfl, by simpa [Symbol.named] using H⟩
  | cons s symbols ih =>
      rw [List.map_cons, List.nodup_cons] at hnodup
      obtain ⟨a₁, hdeclare, H₁⟩ := Arena.declareGlobal_new H (hnew s (by simp))
      have hnew' : ∀ t ∈ symbols, Symbols.find? (G ++ [(s.name, s)]) t.name = none := by
        intro t ht
        have hne : t.name ≠ s.name := fun e => hnodup.1 (e ▸ List.mem_map_of_mem ht)
        have hold := hnew t (by simp [ht])
        unfold Symbols.find? at hold ⊢
        rw [List.lookup_append, hold]
        simp [hne]
      obtain ⟨a₂, hrest, H₂⟩ := ih H₁ hnodup.2 hnew'
      refine ⟨a₂, ?_, by simpa [Symbol.named] using H₂⟩
      rw [declareAll, changeAll, hdeclare]
      exact hrest

end Natives

/-- The symbols of the natives have their names. -/
theorem Natives.map_name_symbols (n : Natives) : n.symbols.map Symbol.name = n.names := by
  simp only [symbols, names, List.map_append, List.map_map]
  rfl

/-- The arena of a session that has just begun. -/
theorem Arena.holds_start : ({} : Arena).newScope none = (0, ⟨#[some ⟨none, []⟩], []⟩) ∧
    Arena.Holds ⟨#[some ⟨none, []⟩], []⟩ 0 [] [] := by
  refine ⟨rfl, rfl, by simp, by simp, ?_, ?_, by simp⟩
  · intro h s hs
    obtain ⟨hlt, -⟩ := Array.getElem?_eq_some_iff.mp hs
    simpa using hlt
  · intro h
    cases h with
    | zero => simp
    | succ h => simp

/-- Registered natives become the symbols of a global scope that had none. -/
theorem Natives.Registered.install {n : Natives} (hn : n.Registered) {a : Arena} {g : Handle}
    (H : a.Holds g [] []) :
    ∃ a', n.install g a = (.ok (), a') ∧ a'.Holds g (Symbol.named n.symbols) [] := by
  rw [Natives.install_eq hn.vars_fit]
  obtain ⟨a', heq, H'⟩ := Natives.declareAll_ok n.symbols H
    (by rw [n.map_name_symbols]; exact hn.names_nodup) (fun _ _ => rfl)
  exact ⟨a', heq, by simpa using H'⟩

end Pigeon
