import Pigeon.Proofs.Execution.Operator
import Pigeon.Proofs.Execution.Primitive
import Pigeon.Proofs.Execution.Trace

/-!
# Safe steps of a run

`Setting.At w Γ F s` is the invariant of a traced run: the machine stands in the context `Γ`, and
every event of the log tells the truth about the site of its node. `Setting.Runs w Γ x Q` says
that the step `x`, begun anywhere in the context `Γ`, keeps the invariant: it either ends with a
result and a context that satisfy `Q`, or fails at run time in a context that differs from `Γ` in
the innermost block only. So the blocks and frames around a step can be closed on every way out of
it.

There is one rule for each way to compose steps. The rule for loops is by induction on the rounds.
-/

namespace Pigeon

open Blocks

/-! ## The failures of a run -/

/-- The last thing that has happened is that a native function was called, and it has failed in this
way. -/
def Setting.Raised (w : Setting) (s : Machine × List Event) (e : Failure) : Prop :=
  ∃ f ∈ w.natives.funcs, ∃ ev args, s.2.getLast? = some ev ∧ ev.moment = .native f.name args ∧
    f.callback args ev.machine.host = (.error e, s.1.host)

/-- A failure that a run may have, and where it leaves the run: a loop is cut off, or the program
fails at run time. In a strict setting only a native function can fail for a value of another type.
Where a native function does not behave, nothing is said. -/
inductive Setting.Allowed (w : Setting) (s : Machine × List Event) : Failure → Prop
  | unfinished : Allowed w s .unfinished
  | runtime {cause : RuntimeCause} {sp : Option Span} :
      (w.strict = true → cause.isMismatch = true → w.Raised s (.runtime cause sp)) →
      Allowed w s (.runtime cause sp)
  | unruly {f : NativeFunction} {e : Failure} : f ∈ w.natives.funcs → ¬ f.Behaves → Allowed w s e

variable {w : Setting}

/-- A failure at run time that is no mismatch in a strict setting. -/
theorem Setting.Allowed.of_lenient {s : Machine × List Event} {cause : RuntimeCause}
    {sp : Option Span} (h : w.strict = true → cause.isMismatch = false) :
    w.Allowed s (.runtime cause sp) := by
  refine .runtime fun hs hm => ?_
  rw [h hs] at hm
  cases hm

/-- Closing blocks and frames leaves the host and the log as the failure has left them. -/
theorem Setting.Allowed.congr {s t : Machine × List Event} {e : Failure} (h : w.Allowed s e)
    (hhost : t.1.host = s.1.host) (hlog : t.2 = s.2) : w.Allowed t e := by
  cases h with
  | unfinished => exact .unfinished
  | unruly hf hnot => exact .unruly hf hnot
  | runtime hraised =>
      refine .runtime fun hs hm => ?_
      unfold Setting.Raised
      rw [hhost, hlog]
      exact hraised hs hm

/-! ## The events of a run -/

/-- The sites of the program. -/
def Setting.sites (w : Setting) : List Site := w.program.sites w.natives

/-- The name that is looked up at a node itself. -/
def Node.target? : Node → Option String
  | expr (.var name _) => some name
  | stmt (.assign name _ _ _) => some name
  | _ => none

/-- What is observed in the context `Γ` is true of the site with the number of the node. -/
def Setting.Told (w : Setting) (Γ : Context) (k : Nat) : Moment → Prop
  | .enter n => w.sites[k]? = some ⟨n, Γ⟩
  | .resolve name => ∃ n t readOnly, w.sites[k]? = some ⟨n, Γ⟩ ∧ n.target? = some name ∧
      Context.resolve w.globals Γ name = some (t, readOnly)
  | .native _ _ => ∃ name es sp, w.sites[k]? = some ⟨.expr (.call name es sp), Γ⟩
  | .value e v => w.sites[k]? = some ⟨.expr e, Γ⟩ ∧
      (w.strict = true → e.typeIn w.globals Γ = some v.ty)
  | .finish s _ => ∃ Γ', w.sites[k]? = some ⟨.stmt s, Γ'⟩

/-- The machine of an event stands in a context in which the event is true. -/
def Setting.Good (w : Setting) (ev : Event) : Prop :=
  ∃ Γ G f F, Γ ≠ [] ∧ w.Stands ev.machine Γ G f F ∧ w.Told Γ ev.index ev.moment

/-- The machine stands in the context `Γ` with the frames `F` below the current one, and the events
so far were true. -/
structure Setting.At (w : Setting) (Γ : Context) (F : List Blocks) (s : Machine × List Event) :
    Prop where
  ne_nil : Γ ≠ []
  stands : ∃ G f, w.Stands s.1 Γ G f F
  good : ∀ ev ∈ s.2, w.Good ev

/-- An event that is true can be added to the log. -/
theorem Setting.At.observed {Γ : Context} {F : List Blocks} {m : Machine} {log : List Event}
    (I : w.At Γ F (m, log)) {k : Nat} {moment : Moment} (h : w.Told Γ k moment) :
    w.At Γ F (m, log ++ [⟨k, moment, m⟩]) := by
  obtain ⟨G, f, S⟩ := I.stands
  refine ⟨I.ne_nil, I.stands, fun ev hev => ?_⟩
  rw [List.mem_append, List.mem_singleton] at hev
  rcases hev with hev | rfl
  · exact I.good ev hev
  · exact ⟨Γ, G, f, F, I.ne_nil, S, h⟩

/-! ## Rules for composed steps -/

/-- From anywhere in the context `Γ` the step ends as `Q` says, or fails in an allowed way. -/
def Setting.Runs {α : Type} (w : Setting) (Γ : Context) (x : Trace α) (Q : α → Context → Prop) :
    Prop :=
  ∀ F s, w.At Γ F s →
    Step.Yields x s (fun a t => ∃ Γ', Γ'.tail = Γ.tail ∧ Q a Γ' ∧ w.At Γ' F t)
      (fun e t => w.Allowed t e ∧ ∃ Γ', Γ'.tail = Γ.tail ∧ w.At Γ' F t)

/-- What holds after a round of a loop: `R` if it was the last one, else `P` before the next one. -/
def AfterRound {σ : Type} (R : Completion → Context → Prop) (P : σ → Context → Prop) :
    Completion ⊕ σ → Context → Prop
  | .inl c => R c
  | .inr s => P s

namespace Setting.Runs

open Logged

variable {α β : Type} {Γ : Context} {x : Trace α} {Q : α → Context → Prop}

/-- A step that gives a value is safe if the value is what is wanted. -/
theorem pure {a : α} (h : Q a Γ) : w.Runs Γ (Pure.pure a) Q :=
  fun _ _ I => Step.Yields.pure ⟨Γ, rfl, h, I⟩

/-- A step that fails is safe if the failure is allowed, whatever the state. -/
theorem throw {e : Failure} (h : ∀ s, w.Allowed s e) : w.Runs Γ (throw e : Trace α) Q :=
  fun _ s I => Step.Yields.throw ⟨h s, Γ, rfl, I⟩

/-- What is known of the result may be weakened. -/
theorem mono {Q' : α → Context → Prop} (h : w.Runs Γ x Q) (hQ : ∀ a Γ', Q a Γ' → Q' a Γ') :
    w.Runs Γ x Q' := by
  intro F s I
  refine (h F s I).mono ?_ fun _ _ he => he
  rintro a t ⟨Γ', htail, ha, I'⟩
  exact ⟨Γ', htail, hQ a Γ' ha, I'⟩

/-- One step after another; the first one may change the innermost block. -/
theorem bind_tail {f : α → Trace β} {R : β → Context → Prop} (h : w.Runs Γ x Q)
    (hf : ∀ a Γ', Γ'.tail = Γ.tail → Q a Γ' → w.Runs Γ' (f a) R) : w.Runs Γ (x >>= f) R := by
  intro F s I
  refine (h F s I).bind ?_
  rintro a t ⟨Γ', htail, ha, I'⟩
  refine (hf a Γ' htail ha F t I').mono ?_ ?_
  · rintro b u ⟨Γ'', htail', hb, I''⟩
    exact ⟨Γ'', htail'.trans htail, hb, I''⟩
  · rintro e u ⟨he, Γ'', htail', I''⟩
    exact ⟨he, Γ'', htail'.trans htail, I''⟩

/-- Two steps in a row are safe if the second one is from every context that the first one may
leave. -/
theorem bind {f : α → Trace β} {R : β → Context → Prop} (h : w.Runs Γ x Q)
    (hf : ∀ a Γ', Q a Γ' → w.Runs Γ' (f a) R) : w.Runs Γ (x >>= f) R :=
  bind_tail h fun a Γ' _ => hf a Γ'

/-- A step that keeps the context, and then another one. -/
theorem keep_bind {f : α → Trace β} {P : α → Prop} {R : β → Context → Prop}
    (h : w.Runs Γ x fun a Γ' => Γ' = Γ ∧ P a) (hf : ∀ a, P a → w.Runs Γ (f a) R) :
    w.Runs Γ (x >>= f) R := by
  refine bind h ?_
  rintro a Γ' ⟨hΓ', ha⟩
  rw [hΓ']
  exact hf a ha

/-- A primitive step that does not fail. -/
theorem lift_ok {x : Run α}
    (h : ∀ m G f F, Γ ≠ [] → w.Stands m Γ G f F → ∃ a m' Γ' G' f', x m = (.ok a, m') ∧
      Γ'.tail = Γ.tail ∧ Γ' ≠ [] ∧ Q a Γ' ∧ w.Stands m' Γ' G' f' F) :
    w.Runs Γ (Logged.lift x) Q := by
  rintro F ⟨m, log⟩ I
  obtain ⟨G, f, S⟩ := I.stands
  obtain ⟨a, m', Γ', G', f', hx, htail, hne, ha, S'⟩ := h m G f F I.ne_nil S
  refine Step.Yields.of_ok (a := a) (t := (m', log)) ?_ ⟨Γ', htail, ha, hne, ⟨G', f', S'⟩, I.good⟩
  rw [lift_apply, hx]

/-- An operation that does not look at the machine. -/
theorem lift_ofExcept {y : Except Failure α} (hok : ∀ a, y = .ok a → Q a Γ)
    (herror : ∀ e s, y = .error e → w.Allowed s e) : w.Runs Γ (Logged.lift (Run.ofExcept y)) Q := by
  cases y with
  | ok a => exact pure (hok a rfl)
  | error e => exact throw fun s => herror e s rfl

/-- An event that is true. -/
theorem observe {k : Nat} {moment : Moment} (h : w.Told Γ k moment) :
    w.Runs Γ (Trace.observe k moment) fun _ Γ' => Γ' = Γ ∧ True := by
  rintro F ⟨m, log⟩ I
  exact Step.Yields.of_ok (note_apply _ m log) ⟨Γ, rfl, ⟨rfl, trivial⟩, I.observed h⟩

/-- An event that is true may be written down before a safe step. -/
theorem observe_bind {k : Nat} {moment : Moment} {f : Unit → Trace β} {R : β → Context → Prop}
    (h : w.Told Γ k moment) (hf : w.Runs Γ (f ()) R) :
    w.Runs Γ (Trace.observe k moment >>= f) R :=
  keep_bind (observe h) fun _ _ => hf

/-- A primitive step that is observed, leaves the context as it is, but may fail. -/
theorem observe_lift {k : Nat} {moment : Moment} {x : Run α} (h : w.Told Γ k moment)
    (hx : ∀ m log G f F, w.Stands m Γ G f F →
      (∃ a m', x m = (.ok a, m') ∧ Q a Γ ∧ w.Stands m' Γ G f F) ∨
        ∃ e m', x m = (.error e, m') ∧ w.Allowed (m', log ++ [⟨k, moment, m⟩]) e ∧
          w.Stands m' Γ G f F) :
    w.Runs Γ (Trace.observe k moment >>= fun _ => Logged.lift x) Q := by
  rintro F ⟨m, log⟩ I
  obtain ⟨G, f, S⟩ := I.stands
  have I' := I.observed h
  refine Step.Yields.bind_ok (note_apply _ m log) ?_
  rcases hx m log G f F S with ⟨a, m', heq, ha, S'⟩ | ⟨e, m', heq, he, S'⟩
  · refine Step.Yields.of_ok (a := a) (t := (m', log ++ [⟨k, moment, m⟩])) ?_
      ⟨Γ, rfl, ha, I.ne_nil, ⟨G, f, S'⟩, I'.good⟩
    rw [lift_apply, heq]
  · refine Step.Yields.of_error (e := e) (t := (m', log ++ [⟨k, moment, m⟩])) ?_
      ⟨he, Γ, rfl, I.ne_nil, ⟨G, f, S'⟩, I'.good⟩
    rw [lift_apply, heq]

/-- The block around a step is closed on every way out of it. -/
theorem inBlock (h : w.Runs ([] :: Γ) x Q) :
    w.Runs Γ (Trace.inBlock x) fun a Γ' => Γ' = Γ ∧ ∃ Γ'', Q a Γ'' := by
  rintro F ⟨m, log⟩ I
  obtain ⟨G, f, S⟩ := I.stands
  obtain ⟨m₁, k, henter, S₁⟩ := Run.enter_eq S I.ne_nil
  have I₁ : w.At ([] :: Γ) F (m₁, log) := ⟨List.cons_ne_nil _ _, ⟨G, _, S₁⟩, I.good⟩
  -- closing leads from any context that the body can end in back to `Γ`
  have hclose : ∀ Γ' t, Γ'.tail = ([] :: Γ).tail → w.At Γ' F t →
      ∃ m', Run.exit t.1 = (.ok (), m') ∧ m'.host = t.1.host ∧ w.At Γ F (m', t.2) := by
    rintro Γ' ⟨m', log'⟩ htail I'
    obtain ⟨block, outer, rfl⟩ := List.exists_cons_of_ne_nil I'.ne_nil
    obtain rfl : outer = Γ := htail
    obtain ⟨G', f', S'⟩ := I'.stands
    obtain ⟨b, rest, rfl⟩ := List.exists_cons_of_ne_nil (Run.ne_nil_of_fits S'.fits I'.ne_nil)
    obtain ⟨m'', hexit, hhost, S''⟩ := Run.exit_eq S' I.ne_nil
    exact ⟨m'', hexit, hhost, I.ne_nil, ⟨G', rest, S''⟩, I'.good⟩
  have hlift : (Logged.lift Run.enter : Trace Unit) (m, log) = (.ok (), (m₁, log)) := by
    rw [lift_apply, henter]
  refine Step.Yields.bind_ok hlift ?_
  have hx := h F (m₁, log) I₁
  unfold Step.Yields Logged.andFinally at *
  rcases hrun : x (m₁, log) with ⟨r, t⟩
  rw [hrun] at hx
  cases r with
  | ok a =>
      obtain ⟨Γ', htail, ha, I'⟩ := hx
      obtain ⟨m', hexit, -, I''⟩ := hclose Γ' t htail I'
      simp only [Logged.lift, hexit]
      exact ⟨Γ, rfl, ⟨rfl, Γ', ha⟩, I''⟩
  | error e =>
      obtain ⟨he, Γ', htail, I'⟩ := hx
      obtain ⟨m', hexit, hhost, I''⟩ := hclose Γ' t htail I'
      simp only [Logged.lift, hexit]
      exact ⟨he.congr hhost rfl, Γ, rfl, I''⟩

/-- A loop whose rounds keep an invariant. -/
theorem iterate {σ : Type} {step : σ → Trace (Completion ⊕ σ)} {P : σ → Context → Prop}
    {R : Completion → Context → Prop}
    (hstep : ∀ s Γ, P s Γ → w.Runs Γ (step s) (AfterRound R P)) :
    ∀ (rounds : Nat) (s : σ) (Γ : Context), P s Γ → w.Runs Γ (Trace.iterate step rounds s) R
  | 0, _, _, _ => throw fun _ => .unfinished
  | rounds + 1, s, Γ, hs => by
      refine bind (hstep s Γ hs) fun r Γ' hr => ?_
      cases r with
      | inl c => exact pure hr
      | inr s' => exact iterate hstep rounds s' Γ' hr

end Setting.Runs

end Pigeon
