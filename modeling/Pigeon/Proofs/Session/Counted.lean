import Pigeon.Proofs.Execution.Counted
import Pigeon.Proofs.Session.Balanced

/-!
# Counted loops count

Let a program be loaded without diagnostics. Whenever a counted loop is executed in an evaluation,
its body is run once for each integer from the start to the bound, if the bound is the same at all
tests and the body does not leave the loop. The body may assign to the counter, or declare what it
likes; each run of it starts with the next counter alone in its scope. Only a loop to the last
integer does not end, since the counter wraps.
-/

namespace Pigeon

open Blocks

namespace Session

variable {natives : Natives} {source : String} {filename : Option String} {host : Host}
  {context : Option LogContext} {time : String} {s t : Session}

/-- Let a program be loaded without diagnostics. At every moment of every evaluation, a counted loop
whose start evaluates to `a`, whose bound evaluates to `b` at all tests and whose body always ends
normally or with `continue` makes the rounds from `a` to `b`. The limits are those of any place of
the program. -/
theorem evaluation_counted (hn : natives.Registered)
    (hload : load source filename (start natives host context time) = (.ok (), s))
    (hd : s.diagnostics = []) (hs : s.Continues t) (limits : Limits) :
    ∃ p, t.program = some p ∧ ∀ ev ∈ t.evaluation limits,
      ∀ limits' counter first bound direction body sp a b,
        (Run.evalInt (p.runSite limits') first ev.machine).1 = .ok a →
        (∀ e ∈ p.loopLog limits' counter first bound direction body ev.machine,
          e.steady b = true) →
        LoopEvent.Counted counter direction a b limits'.rounds
          (p.loopLog limits' counter first bound direction body ev.machine)
          (Run.exec (p.runSite limits') (.forCount counter first bound direction body sp)
            ev.machine).1 := by
  obtain ⟨p, s₀, -, -, hw, R⟩ := ready_of_load hn hload hd hs
  have hgood := R.good hw limits
  refine ⟨p, R.program_eq, ?_⟩
  intro ev hev limits' counter first bound direction body sp a b hfirst hsteady
  obtain ⟨Γ, G, f, F, hΓ, S, -⟩ := hgood ev hev
  have hregular := S.serves.regular fun n _ => n.callback.respects_eq
  -- a place of the program lies in a block
  have hf : environments f ≠ [] := mt List.map_eq_nil_iff.mp (Run.ne_nil_of_fits S.fits hΓ)
  exact p.forCount_counted hregular ⟨_, S.lies.shows, .refl _, rfl⟩ hf limits' counter first bound
    direction body sp hfirst hsteady

/-- A program with a loop that assigns to its counter, and declares a variable in each round. -/
def assigningSource : String :=
  "for i = 2 to 4 \x7b print(i); i *= 100; let j = i; if j > 250 continue; print(j); \x7d"

/-- What is found at a moment that begins a loop upwards: its first counter, whether its log is
steady with the bound 4, and the output after it. -/
def ascentFacts (p : Program) (m : Machine) : Moment → Option (Except Failure Int64 × Bool × String)
  | .enter (.stmt (.forCount counter first bound .up body sp)) =>
    some ((Run.evalInt (p.runSite ⟨8, 8⟩) first m).1,
      (p.loopLog ⟨8, 8⟩ counter first bound .up body m).all (·.steady 4),
      (Run.exec (p.runSite ⟨8, 8⟩) (.forCount counter first bound .up body sp) m).2.host.output)
  | _ => none

/-- Its evaluation begins with the loop, which makes three rounds with the counters 2, 3 and 4. -/
theorem evaluation_counted_assigning :
    ∃ s p ev counter first bound body sp,
      load assigningSource none (start Console.natives {} none "") = (.ok (), s) ∧
      s.diagnostics = [] ∧ s.program = some p ∧ ev ∈ s.evaluation ⟨8, 8⟩ ∧
      ev.moment = .enter (.stmt (.forCount counter first bound .up body sp)) ∧
      let r := Run.exec (p.runSite ⟨8, 8⟩) (.forCount counter first bound .up body sp) ev.machine
      r.1 = .ok .normal ∧ r.2.host.output = "2\n200\n3\n4\n" ∧
        LoopEvent.Rounds (p.loopLog ⟨8, 8⟩ counter first bound .up body ev.machine) counter 3
          (Direction.up.value 2) := by
  obtain ⟨s, hload, hd, hloop⟩ : ∃ s,
      load assigningSource none (start Console.natives {} none "") = (.ok (), s) ∧
      s.diagnostics = [] ∧ (s.program.bind fun p => (s.evaluation ⟨8, 8⟩).head?.bind fun ev =>
        ascentFacts p ev.machine ev.moment) = some (.ok 2, true, "2\n200\n3\n4\n") :=
    exists_of_quiet_and (by decide +kernel)
  obtain ⟨p, hp, hloop⟩ := Option.bind_eq_some_iff.mp hloop
  obtain ⟨ev, hev, hloop⟩ := Option.bind_eq_some_iff.mp hloop
  have hmem := List.mem_of_head? hev
  obtain ⟨p', hp', hcounted⟩ :=
    evaluation_counted Console.natives_registered hload hd .refl ⟨8, 8⟩
  obtain rfl : p = p' := Option.some.inj (hp.symm.trans hp')
  unfold ascentFacts at hloop
  split at hloop
  · next counter first bound body sp hmoment =>
      obtain ⟨hfirst, hsteady, houtput⟩ : _ ∧ _ ∧ _ := by simpa using hloop
      obtain ⟨hresult, hrounds⟩ := (hcounted ev hmem ⟨8, 8⟩ counter first bound .up body sp 2 4
        hfirst hsteady).ends (by decide) (by decide)
      exact ⟨s, p, ev, counter, first, bound, body, sp, hload, hd, hp, hmem, hmoment, hresult,
        houtput, hrounds⟩
  · cases hloop

end Session

end Pigeon
