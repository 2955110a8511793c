import Pigeon.Proofs.Execution.Expr

/-!
# Steps that keep a property of all symbols

`Arena.All P a` says that all symbols of all scopes that are alive satisfy `P`. Such a property needs
no knowledge of contexts: a scope that is opened has no symbols, one that is closed takes its symbols
with it, and only `declare` and `assign` store a symbol.

`Step.Keeps I x Q` says that the step `x` keeps `I`, whether it fails or not, and that its result, if
there is one, satisfies `Q`. There is one lemma for each primitive step, and one for each way to
compose traced steps.
-/

namespace Pigeon

/-! ## Symbols of an arena -/

namespace Arena

/-- All symbols of all scopes that are alive satisfy `P`, each with its name. -/
def All (P : String × Symbol → Prop) (a : Arena) : Prop :=
  ∀ (h : Handle) (scope : Scope), a.slots[h]? = some (some scope) → ∀ x ∈ scope.symbols, P x

namespace All

variable {P : String × Symbol → Prop} {a : Arena}

/-- A new scope has no symbols, so the property holds of all symbols still. -/
theorem newScope (H : a.All P) (parent : Option Handle) : (a.newScope parent).2.All P := by
  -- the new scope has no symbols, and the others stay
  have hnew : ∀ x ∈ (Scope.mk parent []).symbols, P x := nofun
  intro h scope hslot
  unfold Arena.newScope at hslot
  cases hfree : a.free with
  | nil =>
      rw [hfree] at hslot
      dsimp only at hslot
      rw [Array.getElem?_push] at hslot
      split at hslot
      · cases hslot
        exact hnew
      · exact H h scope hslot
  | cons k free =>
      rw [hfree] at hslot
      dsimp only at hslot
      rw [Array.getElem?_setIfInBounds] at hslot
      split at hslot
      · split at hslot
        · cases hslot
          exact hnew
        · cases hslot
      · exact H h scope hslot

/-- Freeing a slot takes symbols away and adds none. -/
theorem vacate (H : a.All P) (k : Handle) : (a.vacate k).All P := by
  intro h scope hslot
  unfold Arena.vacate at hslot
  dsimp only at hslot
  rw [Array.getElem?_setIfInBounds] at hslot
  split at hslot
  · split at hslot <;> cases hslot
  · exact H h scope hslot

/-- Storing a symbol with the property keeps it for all symbols. -/
theorem store (H : a.All P) (k : Handle) {name : String} {s : Symbol} (hs : P (name, s)) :
    (a.store k name s).All P := by
  intro h scope hslot x hx
  rw [store_slots] at hslot
  split at hslot
  · -- the changed scope has one more symbol than before
    rcases hold : a.slots[h]? with _ | _ | old
    · rw [hold] at hslot
      cases hslot
    · rw [hold] at hslot
      cases hslot
    · rw [hold] at hslot
      cases hslot
      rcases Symbols.mem_insert hx with rfl | hx
      · exact hs
      · exact H h old hold x hx
  · exact H h scope hslot x hx

/-- The symbols of a scope that a handle gives have the property. -/
theorem get (H : a.All P) {h : Handle} {scope : Scope} (hget : a.get h = .ok scope) :
    ∀ x ∈ scope.symbols, P x := by
  unfold Arena.get at hget
  split at hget
  · cases hget
  · cases hget
  · next s hslot =>
      cases hget
      exact H h scope hslot

/-- A symbol that a search finds on its way through the parents has the property. -/
theorem locateFrom (H : a.All P) {name : String} {fuel : Nat} {o : Option Handle} {h : Handle}
    {s : Symbol} (hfind : a.locateFrom name fuel o = .ok (some (h, s))) : P (name, s) := by
  induction fuel generalizing o with
  | zero => cases o <;> cases hfind
  | succ fuel ih =>
      cases o with
      | none => cases hfind
      | some k =>
          rw [Arena.locateFrom] at hfind
          cases hget : a.get k with
          | error e =>
              rw [hget] at hfind
              cases hfind
          | ok scope =>
              rw [hget] at hfind
              simp only [bind, Except.bind] at hfind
              split at hfind
              · next found hfound =>
                  cases hfind
                  exact H.get hget _ (Symbols.mem_of_find? hfound)
              · exact ih hfind

end All

/-- A weaker property holds of all symbols too. -/
theorem All.mono {P Q : String × Symbol → Prop} {a : Arena} (H : a.All P) (h : ∀ x, P x → Q x) :
    a.All Q :=
  fun k scope hslot x hx => h x (H k scope hslot x hx)

/-- The symbols of an arena are those of its global scope and of the blocks of its frames. -/
theorem Holds.all {P : String × Symbol → Prop} {a : Arena} {g : Handle} {G : Symbols}
    {F : List Blocks} (H : a.Holds g G F) (hG : ∀ x ∈ G, P x)
    (hF : ∀ f ∈ F, ∀ b ∈ f, ∀ x ∈ b.2, P x) : a.All P := by
  intro h scope hslot
  have hmem := H.live h scope hslot
  rw [List.mem_cons] at hmem
  rcases hmem with rfl | hmem
  · rw [H.root] at hslot
    cases hslot
    exact hG
  · obtain ⟨f, hf, hmem⟩ := List.mem_flatMap.mp hmem
    obtain ⟨scope', hslot', hb⟩ := (H.chained f hf).live_of_mem hmem
    rw [hslot] at hslot'
    cases hslot'
    exact hF f hf _ hb

end Arena

/-! ## Steps that keep a property -/

namespace Step

/-- The step keeps the property `I` of the state, and its result satisfies `Q`. -/
def Keeps {σ α : Type} (I : σ → Prop) (x : Step σ α) (Q : α → Prop) : Prop :=
  ∀ s, I s → x.Yields s (fun a t => Q a ∧ I t) fun _ t => I t

namespace Keeps

variable {σ α β : Type} {I : σ → Prop} {x : Step σ α} {Q : α → Prop} {R : β → Prop}

/-- A step that only gives a value keeps every property. -/
theorem pure {a : α} (h : Q a) : Keeps I (Pure.pure a) Q := fun _ hs => ⟨h, hs⟩

/-- A step that fails at once keeps every property. -/
theorem throw {e : Failure} : Keeps I (throw e : Step σ α) Q := fun _ hs => hs

/-- What is known of the result may be weakened. -/
theorem mono {Q' : α → Prop} (h : Keeps I x Q) (hQ : ∀ a, Q a → Q' a) : Keeps I x Q' :=
  fun s hs => (h s hs).mono (fun a _ ha => ⟨hQ a ha.1, ha.2⟩) fun _ _ he => he

/-- Two steps in a row keep what both keep, and the second may use what the first one gives. -/
theorem bind {f : α → Step σ β} (h : Keeps I x Q) (hf : ∀ a, Q a → Keeps I (f a) R) :
    Keeps I (x >>= f) R :=
  fun s hs => (h s hs).bind fun a t ha => hf a ha.1 t ha.2

/-- The state that is read satisfies what is kept. -/
theorem get_state : Keeps I (get : Step σ σ) I := fun _ hs => ⟨hs, hs⟩

/-- A change of the state keeps what it preserves for every state. -/
theorem modify_state {f : σ → σ} (h : ∀ s, I s → I (f s)) :
    Keeps I (modify f : Step σ PUnit) fun _ => True :=
  fun s hs => ⟨trivial, h s hs⟩

/-- A change of the state with a result keeps what it preserves for every state. -/
theorem modifyGet_state {f : σ → α × σ} (h : ∀ s, I s → I (f s).2) :
    Keeps I (modifyGet f : Step σ α) fun _ => True :=
  fun s hs => ⟨trivial, h s hs⟩

end Keeps

end Step

/-! ## The primitive steps -/

/-- All symbols of the scopes of the machine satisfy `P`. -/
def Machine.All (P : String × Symbol → Prop) (m : Machine) : Prop := m.arena.All P

/-- Closing scopes one after another keeps a property of all symbols. -/
theorem Frame.releaseAll_all {P : String × Symbol → Prop} {hs : List Handle} {a : Arena}
    (H : a.All P) : (Frame.releaseAll hs a).2.2.All P := by
  induction hs generalizing a with
  | nil => exact H
  | cons h hs ih =>
      unfold releaseAll
      split
      · exact ih (H.vacate h)
      · exact H

/-- Leaving a block keeps a property of all symbols. -/
theorem Frame.exit_all {P : String × Symbol → Prop} {f : Frame} {a : Arena} (H : a.All P) :
    (f.exit a).2.2.All P := by
  unfold exit
  split
  · split
    · exact H.vacate _
    · exact H
  · exact H

/-- A symbol that a frame finds has the property of all symbols. -/
theorem Frame.locate_all {P : String × Symbol → Prop} {f : Frame} {a : Arena} {name : String}
    {h : Handle} {s : Symbol} (H : a.All P) (hfind : f.locate a name = .ok (h, s)) :
    P (name, s) := by
  obtain ⟨k, -, hfind⟩ := exists_of_bind_eq_ok hfind
  obtain ⟨found, hlocate, hfound⟩ := exists_of_bind_eq_ok hfind
  cases found with
  | none => cases hfound
  | some found =>
      cases hfound
      exact H.locateFrom hlocate

/-- A variable that a frame finds has the property of all symbols. -/
theorem Frame.locateVariable_all {P : String × Symbol → Prop} {f : Frame} {a : Arena}
    {name : String} {h : Handle} {v : Variable} (H : a.All P)
    (hfind : f.locateVariable a name = .ok (h, v)) : P (name, .var v) := by
  obtain ⟨⟨k, s⟩, hlocate, hvar⟩ := exists_of_bind_eq_ok hfind
  cases s with
  | var u =>
      cases hvar
      exact Frame.locate_all H hlocate
  | func f => cases hvar

namespace Run

open Step

variable {α : Type} {I : Machine → Prop} {P : String × Symbol → Prop}

/-- A result that is known already changes no state. -/
theorem ofExcept_keeps {y : Except Failure α} {Q : α → Prop} (h : ∀ a, y = .ok a → Q a) :
    Keeps I (ofExcept y) Q := by
  cases y with
  | ok a => exact .pure (h a rfl)
  | error e => exact .throw

/-- Reading the innermost frame changes no state. -/
theorem frame_keeps : Keeps I frame fun _ => True := by
  refine .bind .get_state fun m _ => ?_
  split
  · exact .pure trivial
  · exact .throw

/-- Opening a scope stores no symbol. -/
theorem newScope_keeps (parent : Handle) : Keeps (Machine.All P) (newScope parent) fun _ => True :=
  .modifyGet_state fun _ H => H.newScope _

/-- Entering a block stores no symbol. -/
theorem enter_keeps : Keeps (Machine.All P) enter fun _ => True :=
  .bind frame_keeps fun _ _ => .bind (ofExcept_keeps fun _ _ => trivial) fun _ _ =>
    .bind (newScope_keeps _) fun _ _ => .modify_state fun _ H => H

/-- Leaving a block stores no symbol. -/
theorem exit_keeps : Keeps (Machine.All P) exit fun _ => True :=
  .bind frame_keeps fun _ _ => .bind (.modifyGet_state fun _ H => Frame.exit_all H)
    fun _ _ => ofExcept_keeps fun _ _ => trivial

/-- Closing a frame stores no symbol. -/
theorem close_keeps : Keeps (Machine.All P) close fun _ => True :=
  .bind frame_keeps fun _ _ => .bind (.modifyGet_state fun _ H => Frame.releaseAll_all H)
    fun _ _ => ofExcept_keeps fun _ _ => trivial

/-- Opening a frame stores no symbol. -/
theorem openFrame_keeps : Keeps (Machine.All P) openFrame fun _ => True :=
  .bind .get_state fun _ _ => .bind (newScope_keeps _) fun _ _ => .pure trivial

/-- A declaration stores its variable only, so that one must have the property. -/
theorem declareIn_keeps (f : Frame) {v : Variable} (hv : P (v.name, .var v)) :
    Keeps (Machine.All P) (declareIn f v) fun _ => True :=
  .bind .get_state fun _ _ => .bind (ofExcept_keeps fun _ _ => trivial) fun h _ =>
    .modify_state fun _ H => H.store h hv

/-- A declaration in the innermost frame stores its variable only. -/
theorem declare_keeps {v : Variable} (hv : P (v.name, .var v)) :
    Keeps (Machine.All P) (declare v) fun _ => True :=
  .bind frame_keeps fun f _ => declareIn_keeps f hv

/-- The value that is found is that of a variable. -/
theorem lookup_keeps (name : String) :
    Keeps (Machine.All P) (lookup name) fun value =>
      ∃ v : Variable, P (name, .var v) ∧ v.value = some value := by
  refine .bind frame_keeps fun f _ => .bind .get_state fun m H => ofExcept_keeps fun value h => ?_
  obtain ⟨v, hv, hvalue⟩ := exists_of_bind_eq_ok h
  obtain ⟨⟨k, u⟩, hlocate, heq⟩ := exists_of_bind_eq_ok hv
  cases heq
  refine ⟨u, Frame.locateVariable_all H hlocate, ?_⟩
  dsimp only at hvalue
  split at hvalue
  · next found hfound =>
      cases hvalue
      exact hfound
  · cases hvalue

/-- An assignment stores the variable that it found, with another value. -/
theorem assign_keeps {name : String} {value : Value}
    (h : ∀ v : Variable, P (name, .var v) → P (name, .var { v with value := some value })) :
    Keeps (Machine.All P) (assign name value) fun _ => True := by
  refine .bind frame_keeps fun f _ => .bind .get_state fun m H => ?_
  refine .bind (ofExcept_keeps (Q := fun found => P (name, .var found.2)) fun found hfind => ?_)
    fun found hfound => .modify_state fun _ H => H.store _ (h _ hfound)
  obtain ⟨⟨k, v⟩, hlocate, hwrite⟩ := exists_of_bind_eq_ok hfind
  dsimp only at hwrite
  split at hwrite
  · cases hwrite
  · cases hwrite
    exact Frame.locateVariable_all H hlocate

/-- The function that is found is a symbol of its name. -/
theorem function_keeps (site : RunSite) (name : String) (sp : Option Span) :
    Keeps (Machine.All P) (function site name sp) fun f => P (name, .func f) := by
  refine .bind .get_state fun m H => ?_
  refine .bind (ofExcept_keeps (Q := fun found => ∀ f, found = some f → P (name, .func f)) ?_)
    fun found hfound => ?_
  · rintro _ hfind f rfl
    obtain ⟨s, hglobal, hfunc⟩ := exists_of_bind_eq_ok hfind
    obtain ⟨scope, hget, hs⟩ := exists_of_bind_eq_ok hglobal
    cases hs
    split at hfunc
    · next f' hfind' =>
        cases hfunc
        exact H.get hget _ (Symbols.mem_of_find? hfind')
    · cases hfunc
  · cases found with
    | none => exact .throw
    | some f => exact .pure (hfound f rfl)

/-- Checking the arguments of a native call changes no state. -/
theorem checkNativeArguments_keeps (name : String) :
    ∀ (ps : List Parameter) (vs : List Value) (spans : List (Option Span)),
      Keeps I (checkNativeArguments name ps vs spans) fun _ => True
  | [], _, _ => .pure trivial
  | _ :: _, [], _ => .pure trivial
  | _ :: _, _ :: _, [] => .pure trivial
  | p :: ps, v :: vs, span :: spans => by
      unfold checkNativeArguments
      split
      · exact checkNativeArguments_keeps name ps vs spans
      · exact .throw

/-- A callback works on the host and has no access to the scopes. -/
theorem callback_keeps (c : Callback) (args : List Value) :
    Keeps (Machine.All P) (callback c args) fun _ => True := by
  intro m H
  unfold Step.Yields
  rw [callback_apply]
  cases (c args m.host).1 with
  | ok payload => exact ⟨trivial, H⟩
  | error e => exact H

/-- The result of a native function has its result type. -/
theorem callNative_keeps (f : Function) (c : Callback) (args : List Value)
    (spans : List (Option Span)) :
    Keeps (Machine.All P) (callNative f c args spans) fun v => v.ty = f.returns := by
  refine .bind (checkNativeArguments_keeps _ _ _ _) fun _ _ => .bind (callback_keeps c args) ?_
  intro payload _
  unfold nativeResult
  split
  · next v hv => exact .pure (Payload.ty_of_toValue hv)
  · exact .throw
  · exact .throw
  · exact .throw

end Run

/-! ## Traced steps -/

namespace Trace

open Step

/-- All symbols satisfy `P`, now and at every event so far. -/
def Kept (P : String × Symbol → Prop) (s : Machine × List Event) : Prop :=
  s.1.arena.All P ∧ ∀ ev ∈ s.2, ev.machine.arena.All P

variable {α : Type} {P : String × Symbol → Prop} {x : Trace α} {Q : α → Prop}

/-- A step of the machine keeps the property in a traced run as well. -/
theorem lift_keeps {x : Run α} (h : Keeps (Machine.All P) x Q) :
    Keeps (Kept P) (Logged.lift x) Q := by
  rintro ⟨m, log⟩ ⟨H, hlog⟩
  have hx := h m H
  unfold Step.Yields at hx ⊢
  rw [Logged.lift_apply]
  rcases hrun : x m with ⟨r, m'⟩
  rw [hrun] at hx
  cases r with
  | ok a => exact ⟨hx.1, hx.2, hlog⟩
  | error e => exact ⟨hx, hlog⟩

/-- Writing an event down touches no symbol. -/
theorem observe_keeps (k : Nat) (moment : Moment) :
    Keeps (Kept P) (observe k moment) fun _ => True := by
  rintro ⟨m, log⟩ ⟨H, hlog⟩
  refine ⟨trivial, H, ?_⟩
  intro ev hev
  rw [List.mem_append, List.mem_singleton] at hev
  rcases hev with hev | rfl
  · exact hlog ev hev
  · exact H

/-- A clean-up that keeps the property is run after a step that keeps it, however that ends. -/
theorem andFinally_keeps {cleanUp : Run Unit} (h : Keeps (Kept P) x Q)
    (hclean : Keeps (Machine.All P) cleanUp fun _ => True) :
    Keeps (Kept P) (Logged.andFinally x cleanUp) Q := by
  intro s hs
  have hx := h s hs
  unfold Step.Yields Logged.andFinally at *
  rcases hrun : x s with ⟨r, t⟩
  rw [hrun] at hx
  -- the clean-up begins where the step has ended or failed
  have ht : Kept P t := by
    cases r with
    | ok a => exact hx.2
    | error e => exact hx
  have hu := lift_keeps hclean t ht
  unfold Step.Yields at hu
  rcases hlift : (Logged.lift cleanUp : Trace Unit) t with ⟨r', u⟩
  rw [hlift] at hu
  simp only [hlift]
  cases r' with
  | error e => exact hu
  | ok v =>
      cases r with
      | ok a => exact ⟨hx.1, hu.2⟩
      | error e => exact hu.2

/-- A block keeps what its body keeps. -/
theorem inBlock_keeps (h : Keeps (Kept P) x Q) : Keeps (Kept P) (inBlock x) Q :=
  .bind (lift_keeps Run.enter_keeps) fun _ _ => andFinally_keeps h Run.exit_keeps

/-- A frame of a call keeps what the call keeps. -/
theorem inFrame_keeps (f : Frame) (h : Keeps (Kept P) x Q) : Keeps (Kept P) (inFrame f x) Q :=
  .bind (lift_keeps (.modify_state fun _ H => H)) fun _ _ => andFinally_keeps h Run.close_keeps

/-- The events around an expression touch no symbol. -/
theorem evaluated_keeps {k : Nat} {e : Expr} {x : Trace Value} {Q : Value → Prop}
    (h : Keeps (Kept P) x Q) : Keeps (Kept P) (evaluated k e x) Q :=
  .bind (observe_keeps _ _) fun _ _ => .bind h fun _ hv => .bind (observe_keeps _ _) fun _ _ =>
    .pure hv

/-- The events around a statement touch no symbol. -/
theorem executed_keeps {k : Nat} {s : Stmt} {x : Trace Completion} {Q : Completion → Prop}
    (h : Keeps (Kept P) x Q) : Keeps (Kept P) (executed k s x) Q :=
  .bind (observe_keeps _ _) fun _ _ => .bind h fun _ hc => .bind (observe_keeps _ _) fun _ _ =>
    .pure hc

/-- If the round was the last one, it has finished as `R` says. -/
def Closes {σ : Type} (R : Completion → Prop) : Completion ⊕ σ → Prop
  | .inl c => R c
  | .inr _ => True

/-- A loop keeps what its rounds keep. -/
theorem iterate_keeps {σ : Type} {step : σ → Trace (Completion ⊕ σ)} {R : Completion → Prop}
    (h : ∀ s, Keeps (Kept P) (step s) (Closes R)) :
    ∀ (rounds : Nat) (s : σ), Keeps (Kept P) (iterate step rounds s) R
  | 0, _ => .throw
  | rounds + 1, s => by
      refine .bind (h s) fun r hr => ?_
      cases r with
      | inl c => exact .pure hr
      | inr s' => exact iterate_keeps h rounds s'

end Trace

end Pigeon
