import Pigeon.Proofs.Execution.Limited
import Pigeon.Proofs.Session.Independent

/-!
# Limits cut evaluations short

The depth of calls is limited, and so is the number of rounds of a loop. An evaluation that does not
fail because of its limits is the same under all larger ones. One that does fail because of them has
written what every evaluation under larger limits writes first.
-/

namespace Pigeon

/-- The callback never takes back what was written to the console. -/
def Callback.Appends (c : Callback) : Prop :=
  ∀ args host, ∃ text, (c args host).2.output = host.output ++ text

/-- Printing only adds to the output. -/
theorem Console.print_appends : Callback.Appends print := by
  obtain ⟨result, output, h⟩ := print_steady
  exact fun args host => ⟨output args, (h args host).2⟩

/-- A prompt only adds to the output. -/
theorem Console.prompting_appends (read : String → Except Failure Payload) :
    Callback.Appends (prompting read) := by
  intro args host
  unfold prompting
  cases argument args 0 with
  | error e => exact ⟨"", String.append_empty.symm⟩
  | ok v => exact ⟨v.text, rfl⟩

/-- No native of the console takes back what was written. -/
theorem Console.natives_append : ∀ f ∈ natives.funcs, f.callback.Appends := by
  intro f hf
  simp only [natives, List.mem_cons, List.not_mem_nil, or_false] at hf
  rcases hf with rfl | rfl | rfl | rfl | rfl
  · exact print_appends
  all_goals exact prompting_appends _

/-- The functions of a program that follows the rules only add to what a host has seen, if the native
ones do. -/
theorem Setting.Serves.additive {w : Setting} {G : Symbols} {seen : Host → List Char}
    (h : w.Serves G)
    (hseen : ∀ n ∈ w.natives.funcs, ∀ args host, seen host <+: seen (n.callback args host).2) :
    Environment.Additive seen G.find? := by
  intro name f hf start
  refine h.regular (fun n hn => ?_) name f hf
  rintro args host _ ⟨rfl, hle⟩
  exact ⟨rfl, rfl, hle.trans (hseen n hn args host)⟩

/-- When the native variables of a session that is ready have their first values again, a run with
smaller limits is cut short at most. -/
theorem Setting.Ready.run_cut {w : Setting} {t : Session} (hw : w.Sound) (R : w.Ready t)
    {limits limits' : Limits} (hcalls : limits.calls ≤ limits'.calls)
    (hrounds : limits.rounds ≤ limits'.rounds) :
    ∃ a, t.natives.reset t.globals t.arena = (.ok (), a) ∧
      let r := w.program.run limits t.globals a t.host
      let r' := w.program.run limits' t.globals a t.host
      ∀ seen : Host → List Char,
        (∀ n ∈ w.natives.funcs, ∀ args host, seen host <+: seen (n.callback args host).2) →
        r' = r ∨ ∃ e, r.1 = .error e ∧ limits.Cut limits' e ∧ seen r.2.2 <+: seen r'.2.2 := by
  obtain ⟨a, hreset, G, H, hserves, -⟩ := R.reset hw
  refine ⟨a, hreset, ?_⟩
  intro r r' seen hseen
  -- both runs begin with the machine that has the globals and no frames
  let m : Machine := { arena := a, globals := t.globals, frames := [], host := t.host }
  have L : m.scopes.Lies G [] := by
    constructor
    · show a.Holds t.globals G []
      rw [R.globals_eq]
      exact H
    · rfl
  have hcuts := w.program.steps_cuts (hserves.additive hseen) hcalls hrounds
  rcases hcuts.agrees L.shows (.refl _) (Nat.zero_le _) with heq | ⟨e, u, heq, he, hle⟩
  · left
    show w.program.run limits' t.globals a t.host = w.program.run limits t.globals a t.host
    rw [Program.run_eq_steps, Program.run_eq_steps, heq]
  · right
    refine ⟨e, congrArg Prod.fst heq, he, ?_⟩
    show seen (w.program.steps limits m).2.host <+: seen (w.program.steps limits' m).2.host
    rw [heq]
    exact hle

namespace Session

variable {natives : Natives} {source : String} {filename : Option String} {host : Host}
  {context : Option LogContext} {time : String} {s t : Session} {p : Program} {a : Arena}
  {limits limits' : Limits}

/-- An evaluation depends on its limits through the run of the program only. -/
theorem evaluate_congr (hp : t.program = some p)
    (hreset : t.natives.reset t.globals t.arena = (.ok (), a))
    (h : p.run limits' t.globals a t.host = p.run limits t.globals a t.host)
    (name : Option String) : evaluate name limits' t = evaluate name limits t := by
  have hrun : ∀ j : Journal, run limits' { t with arena := a, journal := j } =
      run limits { t with arena := a, journal := j } := by
    intro j
    unfold run
    rw [Step.bind_ok (Step.get_apply _), Step.bind_ok (Step.get_apply _)]
    simp only [hp, h]
  unfold evaluate
  rw [Step.bind_ok (Step.get_apply t), Step.bind_ok (Step.get_apply t)]
  split
  · rfl
  · obtain ⟨j, hnote⟩ := Takes.note (s := t) (·.stage "Evaluating" name) t.journal
    obtain ⟨j', hreset'⟩ := reset_takes hreset j
    rw [Step.bind_ok hnote, Step.bind_ok hnote, Step.bind_ok hreset', Step.bind_ok hreset',
      Step.tryCatch_apply, Step.tryCatch_apply, hrun]

/-- Let a program be loaded without diagnostics, and take any of its evaluations, and the one in its
place under limits that are not smaller. If the first one does not fail because of its limits, both
end with the same result and leave the same session. In any case the first one has written a part of
what the second one writes, from the start of it on, if no native takes back what was written. -/
theorem evaluation_cut_short (hn : natives.Registered)
    (hload : load source filename (start natives host context time) = (.ok (), s))
    (hd : s.diagnostics = []) (hs : s.Continues t) (name : Option String)
    (hcalls : limits.calls ≤ limits'.calls) (hrounds : limits.rounds ≤ limits'.rounds) :
    ((∀ e, (evaluate name limits t).1 = .error e → ¬ limits.Cut limits' e) →
        evaluate name limits' t = evaluate name limits t) ∧
      ((∀ f ∈ natives.funcs, f.callback.Appends) →
        ∃ text, (evaluate name limits' t).2.host.output =
          (evaluate name limits t).2.host.output ++ text) := by
  obtain ⟨p, s₀, -, -, hw, R⟩ := ready_of_load hn hload hd hs
  obtain ⟨a, hreset, hcut⟩ := R.run_cut hw hcalls hrounds
  obtain ⟨j, hevaluate⟩ :=
    evaluate_takes R.program_eq R.diagnostics_eq hreset name limits t.journal
  obtain ⟨j', hevaluate'⟩ :=
    evaluate_takes R.program_eq R.diagnostics_eq hreset name limits' t.journal
  constructor
  · intro huncut
    -- nothing is asked of the natives, so nothing of the host is looked at
    rcases hcut (fun _ => []) fun _ _ _ _ => List.prefix_rfl with heq | ⟨e, heq, he, -⟩
    · exact evaluate_congr R.program_eq hreset heq name
    · rw [hevaluate] at huncut
      exact absurd he (huncut e heq)
  · intro happends
    have hseen : ∀ n ∈ natives.funcs, ∀ args host,
        host.output.toList <+: (n.callback args host).2.output.toList := by
      intro n hmem args host
      obtain ⟨text, htext⟩ := happends n hmem args host
      rw [htext, String.toList_append]
      exact List.prefix_append _ _
    have hle : (evaluate name limits t).2.host.output.toList <+:
        (evaluate name limits' t).2.host.output.toList := by
      rw [hevaluate, hevaluate']
      rcases hcut (·.output.toList) hseen with heq | ⟨e, -, -, hle⟩
      · rw [heq]
      · exact hle
    obtain ⟨text, htext⟩ := hle
    refine ⟨String.ofList text, String.toList_injective ?_⟩
    rw [String.toList_append, String.toList_ofList, htext]

/-- A program with calls inside each other, which write a number each. -/
def descendingSource : String :=
  "void f(int n) \x7b print(n); if n > 0 f(n - 1); \x7d f(3);"

/-- Four calls are enough for its evaluation, so it is the same with nine. With two it fails, and has
written the first half. -/
theorem evaluation_cut_short_descending :
    ∃ s, load descendingSource none (start Console.natives {} none "") = (.ok (), s) ∧
      s.diagnostics = [] ∧ evaluate none ⟨9, 1⟩ s = evaluate none ⟨4, 1⟩ s ∧
      (evaluate none ⟨2, 1⟩ s).1 = .error (.runtime .stackExhausted none) ∧
      (evaluate none ⟨2, 1⟩ s).2.host.output = "3\n2\n" ∧
      ∃ text, (evaluate none ⟨9, 1⟩ s).2.host.output = "3\n2\n" ++ text := by
  obtain ⟨s, hload, hd, hends, hfails, hwrites⟩ : ∃ s,
      load descendingSource none (start Console.natives {} none "") = (.ok (), s) ∧
      s.diagnostics = [] ∧ (evaluate none ⟨4, 1⟩ s).1 = .ok () ∧
      (evaluate none ⟨2, 1⟩ s).1 = .error (.runtime .stackExhausted none) ∧
      (evaluate none ⟨2, 1⟩ s).2.host.output = "3\n2\n" := exists_of_quiet_and (by decide +kernel)
  have hsame : evaluate none ⟨9, 1⟩ s = evaluate none ⟨4, 1⟩ s := by
    apply (evaluation_cut_short Console.natives_registered hload hd .refl none (by decide)
      (by decide)).1
    rw [hends]
    rintro _ ⟨⟩
  have hwrote : ∃ text, (evaluate none ⟨9, 1⟩ s).2.host.output =
      (evaluate none ⟨2, 1⟩ s).2.host.output ++ text :=
    (evaluation_cut_short Console.natives_registered hload hd .refl none (by decide)
      (by decide)).2 Console.natives_append
  rw [hwrites] at hwrote
  exact ⟨s, hload, hd, hsame, hfails, hwrites, hwrote⟩

end Session

end Pigeon
