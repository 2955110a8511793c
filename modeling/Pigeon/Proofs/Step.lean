import Pigeon.Failure

/-!
# Steps

The checker, the machine and a session all work in steps that change a state and may fail. This
module says what a step does as a function of the state before it, and gives the rules by which a
property of a composed step follows from properties of its parts.

`Step.Yields x s Q E` says that the step `x`, begun in the state `s`, either ends with a result and
a state that satisfy `Q`, or fails with a failure and a state that satisfy `E`. `Step.Only x Q` says
that `x` ends with no other results than those that satisfy `Q`, whatever the state.
`Step.Matches S E R x y` compares two steps that are begun in states in the relation `S`.

A step can also keep a *log*. `Logged.Erases x y` says that the step `x` with a log does what `y`
does without one.
-/

namespace Pigeon

/-- The parts of a sequence that does not fail. -/
theorem exists_of_bind_eq_ok {α β : Type} {x : Except Failure α} {f : α → Except Failure β} {b : β}
    (h : x >>= f = .ok b) : ∃ a, x = .ok a ∧ f a = .ok b := by
  cases x with
  | error e => cases h
  | ok a => exact ⟨a, rfl, h⟩

/-- A result that was mapped comes from a result. -/
theorem exists_of_map_eq_ok {ε α β : Type} {x : Except ε α} {f : α → β} {b : β}
    (h : x.map f = .ok b) : ∃ a, x = .ok a ∧ f a = b := by
  cases x with
  | ok a => exact ⟨a, rfl, Except.ok.inj h⟩
  | error e => cases h

/-- A computation that succeeds has a result. -/
theorem exists_of_isOk {ε α : Type} {x : Except ε α} (h : x.isOk = true) : ∃ a, x = .ok a := by
  cases x with
  | ok a => exact ⟨a, rfl⟩
  | error e => cases h

/-- A step that changes a state and may fail. -/
abbrev Step (σ α : Type) := ExceptT Failure (StateM σ) α

namespace Step

variable {σ α β : Type}

/-! ## What a step does -/

@[simp] theorem pure_apply (a : α) (s : σ) : (pure a : Step σ α) s = (.ok a, s) := rfl

@[simp] theorem throw_apply (e : Failure) (s : σ) : (throw e : Step σ α) s = (.error e, s) := rfl

@[simp] theorem get_apply (s : σ) : (get : Step σ σ) s = (.ok s, s) := rfl

@[simp] theorem modify_apply (f : σ → σ) (s : σ) :
    (modify f : Step σ PUnit) s = (.ok (), f s) := rfl

@[simp] theorem modifyGet_apply (f : σ → α × σ) (s : σ) :
    (modifyGet f : Step σ α) s = (.ok (f s).1, (f s).2) := rfl

/-- A sequence goes on from the state that its first part ends in, unless that part fails. -/
theorem bind_apply (x : Step σ α) (f : α → Step σ β) (s : σ) :
    (x >>= f) s = match x s with
      | (.ok a, t) => f a t
      | (.error e, t) => (.error e, t) := by
  rcases h : x s with ⟨r, t⟩
  cases r with
  | ok a => simp only [bind, ExceptT.bind, ExceptT.mk, StateT.bind, h, ExceptT.bindCont]
  | error e => simp only [bind, ExceptT.bind, ExceptT.mk, StateT.bind, h, ExceptT.bindCont]; rfl

/-- A sequence whose first part ends with a result. -/
theorem bind_ok {x : Step σ α} {f : α → Step σ β} {s t : σ} {a : α} (h : x s = (.ok a, t)) :
    (x >>= f) s = f a t := by
  rw [bind_apply, h]

/-- A sequence whose first part fails. -/
theorem bind_error {x : Step σ α} {f : α → Step σ β} {s t : σ} {e : Failure}
    (h : x s = (.error e, t)) : (x >>= f) s = (.error e, t) := by
  rw [bind_apply, h]

/-- A failure of a step is handled in the state that the step ends in. -/
theorem tryCatch_apply (x : Step σ α) (handle : Failure → Step σ α) (s : σ) :
    (tryCatch x handle) s = match x s with
      | (.ok a, t) => (.ok a, t)
      | (.error e, t) => handle e t := by
  show ((ExceptT.tryCatch x handle : Step σ α)) s = _
  rcases h : x s with ⟨r, t⟩
  cases r with
  | ok a => simp only [ExceptT.tryCatch, ExceptT.mk, bind, StateT.bind, h]; rfl
  | error e => simp only [ExceptT.tryCatch, ExceptT.mk, bind, StateT.bind, h]

/-! ## Properties of composed steps -/

/-- From the state `s` the step either ends as `Q` says or fails as `E` says. -/
def Yields (x : Step σ α) (s : σ) (Q : α → σ → Prop) (E : Failure → σ → Prop) : Prop :=
  match x s with
  | (.ok a, t) => Q a t
  | (.error e, t) => E e t

variable {s t : σ} {Q : α → σ → Prop} {E : Failure → σ → Prop} {R : β → σ → Prop}

/-- A step that is known to end with a result yields what holds of the result. -/
theorem Yields.of_ok {x : Step σ α} {a : α} (h : x s = (.ok a, t)) (hQ : Q a t) :
    x.Yields s Q E := by
  rw [Yields, h]
  exact hQ

/-- A step that is known to fail yields what holds of the failure. -/
theorem Yields.of_error {x : Step σ α} {e : Failure} (h : x s = (.error e, t)) (hE : E e t) :
    x.Yields s Q E := by
  rw [Yields, h]
  exact hE

theorem Yields.pure {a : α} (h : Q a s) : (pure a : Step σ α).Yields s Q E := h

theorem Yields.throw {e : Failure} (h : E e s) : (throw e : Step σ α).Yields s Q E := h

/-- Weaker properties hold as well. -/
theorem Yields.mono {Q' : α → σ → Prop} {E' : Failure → σ → Prop} {x : Step σ α}
    (h : x.Yields s Q E) (hQ : ∀ a t, Q a t → Q' a t) (hE : ∀ e t, E e t → E' e t) :
    x.Yields s Q' E' := by
  unfold Yields at h ⊢
  rcases hx : x s with ⟨r, t⟩
  rw [hx] at h
  cases r with
  | ok a => exact hQ a t h
  | error e => exact hE e t h

/-- What is said of both ends of a step holds of its result. -/
theorem Yields.result {x : Step σ α} {P : Except Failure α → σ → Prop}
    (h : x.Yields s (fun a => P (.ok a)) fun e => P (.error e)) : P (x s).1 (x s).2 := by
  unfold Yields at h
  rcases hx : x s with ⟨r, t⟩
  rw [hx] at h
  cases r with
  | ok a => exact h
  | error e => exact h

/-- The rule for sequences. -/
theorem Yields.bind {x : Step σ α} {f : α → Step σ β} (h : x.Yields s Q E)
    (hf : ∀ a t, Q a t → (f a).Yields t R E) : (x >>= f).Yields s R E := by
  unfold Yields at h ⊢
  rw [bind_apply]
  rcases hx : x s with ⟨r, t⟩
  rw [hx] at h
  cases r with
  | ok a => exact hf a t h
  | error e => exact h

/-- A sequence whose first part is known to end with a result. -/
theorem Yields.bind_ok {x : Step σ α} {f : α → Step σ β} {a : α} (h : x s = (.ok a, t))
    (hf : (f a).Yields t R E) : (x >>= f).Yields s R E := by
  unfold Yields at hf ⊢
  rw [Step.bind_ok h]
  exact hf

/-! ## Properties of results -/

/-- Whatever the state, if the step ends with a result, the result satisfies `Q`. -/
def Only (x : Step σ α) (Q : α → Prop) : Prop :=
  ∀ s, x.Yields s (fun a _ => Q a) fun _ _ => True

namespace Only

variable {x : Step σ α} {Q : α → Prop} {R : β → Prop}

theorem pure {a : α} (h : Q a) : Only (Pure.pure a : Step σ α) Q := fun _ => h

theorem throw {e : Failure} : Only (throw e : Step σ α) Q := fun _ => trivial

theorem top (x : Step σ α) : Only x fun _ => True := by
  intro s
  unfold Yields
  rcases x s with ⟨r, t⟩
  cases r <;> trivial

/-- What is known of the results may be weakened. -/
theorem mono {Q' : α → Prop} (h : Only x Q) (hQ : ∀ a, Q a → Q' a) : Only x Q' :=
  fun s => (h s).mono (fun a _ => hQ a) fun _ _ he => he

/-- The second of two steps may use what all results of the first one satisfy. -/
theorem bind {f : α → Step σ β} (h : Only x Q) (hf : ∀ a, Q a → Only (f a) R) :
    Only (x >>= f) R :=
  fun s => (h s).bind fun a t ha => hf a ha t

/-- Nothing needs to be known of the result of the first part. -/
theorem seq {f : α → Step σ β} (hf : ∀ a, Only (f a) R) : Only (x >>= f) R :=
  (top x).bind fun a _ => hf a

/-- A result that the step has given satisfies what all of them do. -/
theorem result {s : σ} {a : α} (h : Only x Q) (ha : (x s).1 = .ok a) : Q a := by
  have hs := h s
  unfold Yields at hs
  rcases hx : x s with ⟨r, t⟩
  rw [hx] at hs ha
  cases ha
  exact hs

end Only

/-! ## Two steps side by side -/

/-- Both steps have ended with results in the relation `R`, or both have failed with failures in the
relation `E`, and the states after them are in the relation `S`. -/
inductive Both {τ : Type} (S : σ → τ → Prop) (E : Failure → Failure → Prop) (R : α → β → Prop) :
    Except Failure α × σ → Except Failure β × τ → Prop
  | ok {a b s t} : R a b → S s t → Both S E R (.ok a, s) (.ok b, t)
  | error {e e' s t} : E e e' → S s t → Both S E R (.error e, s) (.error e', t)

/-- From states in the relation `S`, the steps have ends that are related. -/
def Matches {τ : Type} (S : σ → τ → Prop) (E : Failure → Failure → Prop) (R : α → β → Prop)
    (x : Step σ α) (y : Step τ β) : Prop :=
  ∀ s t, S s t → Both S E R (x s) (y t)

namespace Matches

variable {τ γ δ : Type} {S : σ → τ → Prop} {E : Failure → Failure → Prop} {R : α → β → Prop}
  {R' : γ → δ → Prop} {x : Step σ α} {y : Step τ β}

theorem pure {a : α} {b : β} (h : R a b) :
    Matches S E R (Pure.pure a : Step σ α) (Pure.pure b : Step τ β) :=
  fun _ _ hs => .ok h hs

theorem throw {e e' : Failure} (h : E e e') :
    Matches S E R (throw e : Step σ α) (throw e' : Step τ β) :=
  fun _ _ hs => .error h hs

theorem get : Matches S E S (get : Step σ σ) (get : Step τ τ) :=
  fun _ _ hs => .ok hs hs

/-- Two steps in a row match two others if the first ones match and the second ones do on related
results. -/
theorem bind {f : α → Step σ γ} {g : β → Step τ δ} (h : Matches S E R x y)
    (hf : ∀ a b, R a b → Matches S E R' (f a) (g b)) : Matches S E R' (x >>= f) (y >>= g) := by
  intro s t hs
  have hends := h s t hs
  rw [bind_apply, bind_apply]
  generalize x s = r, y t = r' at hends
  cases hends with
  | ok hab hst => exact hf _ _ hab _ _ hst
  | error he hst => exact .error he hst

/-- The rule for sequences whose first parts have the same result. -/
theorem bind_eq {x : Step σ α} {y : Step τ α} {f : α → Step σ γ} {g : α → Step τ δ}
    (h : Matches S E Eq x y) (hf : ∀ a, Matches S E R' (f a) (g a)) :
    Matches S E R' (x >>= f) (y >>= g) :=
  h.bind fun a _ hab => hab ▸ hf a

/-- A choice by one condition matches where both branches match. -/
theorem ite {p : Prop} [Decidable p] {x' : Step σ α} {y' : Step τ β} (h : Matches S E R x y)
    (h' : Matches S E R x' y') : Matches S E R (if p then x else x') (if p then y else y') := by
  split
  · exact h
  · exact h'

end Matches

end Step

/-! ## Steps with a log -/

/-- A step that also writes a log, whose entries have the type `ε`. -/
abbrev Logged (ε σ α : Type) := Step (σ × List ε) α

namespace Logged

variable {ε σ α β : Type}

/-- A step that leaves the log alone. -/
def lift (x : Step σ α) : Logged ε σ α := fun s =>
  match x s.1 with
  | (r, t) => (r, (t, s.2))

/-- Writes an entry about the state. -/
def note (entry : σ → ε) : Logged ε σ Unit :=
  modify fun s => (s.1, s.2 ++ [entry s.1])

/-- Runs a step and writes an entry about how it has ended. -/
def watch (entry : Except Failure α → ε) (x : Step σ α) : Logged ε σ α := fun s =>
  match x s.1 with
  | (r, t) => (r, (t, s.2 ++ [entry r]))

/-- Runs a clean-up after a step, whether it has failed or not. A failure of the clean-up wins. -/
def andFinally (body : Logged ε σ α) (cleanUp : Step σ Unit) : Logged ε σ α := fun s =>
  match body s with
  | (r, t) =>
    match lift cleanUp t with
    | (.ok (), u) => (r, u)
    | (.error e, u) => (.error e, u)

/-- Without its log, the step `x` is the step `y`. -/
def Erases (x : Logged ε σ α) (y : Step σ α) : Prop :=
  ∀ s log, ((x (s, log)).1, (x (s, log)).2.1) = y s

/-- A lifted step leaves the log as it is. -/
theorem lift_apply (x : Step σ α) (s : σ) (log : List ε) :
    lift x (s, log) = ((x s).1, ((x s).2, log)) := rfl

theorem note_apply (entry : σ → ε) (s : σ) (log : List ε) :
    note entry (s, log) = (.ok (), (s, log ++ [entry s])) := rfl

theorem watch_apply (entry : Except Failure α → ε) (x : Step σ α) (s : σ) (log : List ε) :
    watch entry x (s, log) = ((x s).1, ((x s).2, log ++ [entry (x s).1])) := rfl

/-- A step that leaves the log alone ends as it does without a log. -/
theorem lift_yields {x : Step σ α} {s : σ} {log : List ε} {Q : α → σ × List ε → Prop}
    {E : Failure → σ × List ε → Prop}
    (h : x.Yields s (fun a t => Q a (t, log)) fun e t => E e (t, log)) :
    Step.Yields (lift x) (s, log) Q E := by
  unfold Step.Yields at h ⊢
  rw [lift_apply]
  rcases hx : x s with ⟨r, t⟩
  rw [hx] at h
  cases r with
  | ok a => exact h
  | error e => exact h

/-- The rule for a step with a clean-up after it, where failures do not matter. -/
theorem andFinally_yields {x : Logged ε σ α} {cleanUp : Step σ Unit} {s : σ × List ε}
    {Q R : α → σ × List ε → Prop} (h : Step.Yields x s Q fun _ _ => True)
    (hclean : ∀ a t, Q a t → cleanUp.Yields t.1 (fun _ u => R a (u, t.2)) fun _ _ => True) :
    Step.Yields (andFinally x cleanUp) s R fun _ _ => True := by
  unfold Step.Yields andFinally at *
  rcases hx : x s with ⟨r, t⟩
  rw [hx] at h
  cases r with
  | error e => rcases hlift : lift cleanUp t with ⟨r', u⟩; cases r' <;> simp only [hlift]
  | ok a =>
      have hends := lift_yields (Q := fun _ => R a) (E := fun _ _ => True) (hclean a t h)
      unfold Step.Yields at hends
      rcases hlift : lift cleanUp t with ⟨r', u⟩
      rw [hlift] at hends
      simp only [hlift]
      cases r' with
      | ok v => exact hends
      | error e => trivial

/-- A clean-up leaves the log alone. -/
theorem andFinally_log (x : Logged ε σ α) (cleanUp : Step σ Unit) (s : σ) (log : List ε) :
    (andFinally x cleanUp (s, log)).2.2 = (x (s, log)).2.2 := by
  unfold andFinally
  rcases x (s, log) with ⟨r, t, log'⟩
  simp only [lift_apply]
  rcases cleanUp t with ⟨r', u⟩
  cases r' <;> rfl

/-- A clean-up that does not fail leaves the result alone. -/
theorem andFinally_result {x : Logged ε σ α} {cleanUp : Step σ Unit} {s u : σ} {log : List ε}
    (h : cleanUp (x (s, log)).2.1 = (.ok (), u)) :
    (andFinally x cleanUp (s, log)).1 = (x (s, log)).1 := by
  unfold andFinally
  rcases hx : x (s, log) with ⟨r, t, log'⟩
  rw [hx] at h
  simp only [lift_apply, show cleanUp t = _ from h]

/-- A lifted step does without a log what it does with one. -/
theorem Erases.lift (x : Step σ α) : Erases (Logged.lift x : Logged ε σ α) x :=
  fun _ _ => rfl

/-- A watched step does without a log what it does alone. -/
theorem Erases.watch (entry : Except Failure α → ε) (x : Step σ α) :
    Erases (Logged.watch entry x) x :=
  fun _ _ => rfl

theorem Erases.pure (a : α) : Erases (pure a : Logged ε σ α) (pure a) :=
  fun _ _ => rfl

theorem Erases.throw (e : Failure) : Erases (throw e : Logged ε σ α) (throw e) :=
  fun _ _ => rfl

/-- The erasure of a sequence is the sequence of the erasures. -/
theorem Erases.bind {x : Logged ε σ α} {y : Step σ α} {f : α → Logged ε σ β} {g : α → Step σ β}
    (hx : Erases x y) (hf : ∀ a, Erases (f a) (g a)) : Erases (x >>= f) (y >>= g) := by
  intro s log
  have h := hx s log
  rw [Step.bind_apply, Step.bind_apply, ← h]
  rcases x (s, log) with ⟨r, t, log'⟩
  cases r with
  | ok a => exact hf a t log'
  | error e => rfl

/-- An entry of the log leaves no trace in the erasure. -/
theorem Erases.note {entry : σ → ε} {f : Unit → Logged ε σ α} {y : Step σ α}
    (h : Erases (f ()) y) : Erases (Logged.note entry >>= f) y := by
  intro s log
  rw [Step.bind_ok (note_apply entry s log)]
  exact h s (log ++ [entry s])

end Logged

end Pigeon
