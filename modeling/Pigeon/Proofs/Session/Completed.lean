import Pigeon.Proofs.Execution.Exits
import Pigeon.Proofs.Session.Evaluated

/-!
# Completions

If the checker says of a statement that every path through it returns, no execution of it finishes
normally, in whatever state it begins. A statement finishes with `break` or `continue` only if it
has such an exit. In a program that was loaded without diagnostics the body of a function therefore
finishes with a `return`, or normally if the function is void, and a statement at top level finishes
normally.
-/

namespace Pigeon

/-- What the checker says of the paths through statements and blocks is so, and a statement is left
only through its own exits. -/
structure Run.Disciplined (site : RunSite) : Prop where
  stmt : ∀ csite c s, (Check.checkStmt csite s c).1 = .ok true →
    ∀ m, (exec site s m).1 ≠ .ok .normal
  block : ∀ csite c b, (Check.inBlock (Check.checkBody csite b) c).1 = .ok true →
    ∀ m, (inBlock (execBody site b) m).1 ≠ .ok .normal
  /-- The body of a counted loop shares the block of the counter. -/
  body : ∀ csite c b, (Check.checkBody csite b c).1 = .ok true →
    ∀ m, (execBody site b m).1 ≠ .ok .normal
  brk : ∀ s m, (exec site s m).1 = .ok .brk → s.Exits .brk
  cont : ∀ s m, (exec site s m).1 = .ok .cont → s.Exits .cont

/-- How the body of a function with the given result type finishes: a function that is not void
returns the value of an expression of one of its `return` statements. -/
inductive FuncDecl.Completes (site : RunSite) (d : FuncDecl) (returns : Ty) : Completion → Prop
  | normal : returns = .void → Completes site d returns .normal
  | void : returns = .void → Stmt.SomeExits d.body.stmts (.ret none) →
      Completes site d returns (.ret .void)
  | value {e v m m'} : returns ≠ .void → Stmt.SomeExits d.body.stmts (.ret (some e)) →
      Run.eval site e m = (.ok v, m') → Completes site d returns (.ret v)

/-- At every site the machine is disciplined. -/
theorem Run.disciplined (site : RunSite) : Disciplined site where
  stmt csite _ s hreturns _ hnormal :=
    (exec_of_returns s ((Check.checkStmt_returns csite s).result hreturns rfl)).result hnormal rfl
  block csite _ b hreturns _ hnormal :=
    (inBlock_only (execBody_of_returns b ((Check.inBlock_only
      (Check.checkBody_returns csite b)).result hreturns rfl))).result hnormal rfl
  body csite _ b hreturns _ hnormal :=
    (execBody_of_returns b ((Check.checkBody_returns csite b).result hreturns rfl)).result hnormal
      rfl
  brk s _ hbrk := by
    obtain hnormal | ⟨x, hx, hgives⟩ := (exec_by s).result hbrk
    · cases hnormal
    · cases hgives
      exact hx
  cont s _ hcont := by
    obtain hnormal | ⟨x, hx, hgives⟩ := (exec_by s).result hcont
    · cases hnormal
    · cases hgives
      exact hx

variable {natives : Natives} {p : Program}

/-- The body of a function that follows the rules. -/
theorem FuncDecl.WellTyped.completes {Δ : Globals} {d : FuncDecl} {f : Function}
    (hd : d.WellTyped Δ f) {site : RunSite} {m : Machine} {c : Completion}
    (hc : (Run.inBlock (Run.execBody site d.body) m).1 = .ok c) : d.Completes site f.returns c := by
  obtain ⟨Γ, hbody⟩ := hd.body
  obtain rfl | ⟨x, hx, hgives⟩ := (Run.inBlock_only (Run.execBody_by d.body)).result hc
  · -- if the function were not void, all paths through its body would return
    by_cases hvoid : f.returns = .void
    · exact .normal hvoid
    · have hreturns : Step.Only (Run.execBody site d.body) (· ≠ .normal) :=
        Run.execBody_of_returns d.body (hd.returns hvoid)
      exact absurd rfl ((Run.inBlock_only hreturns).result hc)
  · have hpermitted := Stmt.permitted_of_someExits d.body.stmts hx hbody
    cases hgives with
    | brk => cases hpermitted
    | cont => cases hpermitted
    | void =>
        cases hpermitted with
        | void hret => exact .void (Option.some.inj hret) hx
    | value heval =>
        cases hpermitted with
        | value _ ht hret => exact .value (Option.some.inj hret ▸ ht) hx heval

/-- The exits of statements are the exits of one of them. -/
theorem Stmt.someExits_of_mem {ss : List Stmt} {s : Stmt} {x : Exit} (hs : s ∈ ss)
    (hx : s.Exits x) : Stmt.SomeExits ss x := by
  induction hs with
  | head => exact .here hx
  | tail _ _ ih => exact .later ih

/-- A statement at top level of a program that follows the rules has no exits. -/
theorem Program.WellTyped.finishes_normal (W : p.WellTyped natives) {s : Stmt}
    (hs : s ∈ p.statements) {site : RunSite} {m : Machine} {c : Completion}
    (hc : (Run.exec site s m).1 = .ok c) : c = .normal := by
  obtain hnormal | ⟨x, hx, -⟩ := (Run.exec_by s).result hc
  · exact hnormal
  · obtain ⟨Γ, hstatements⟩ := W.statements
    cases Stmt.permitted_of_someExits p.statements (Stmt.someExits_of_mem hs hx) hstatements with
    | void hret => cases hret
    | value _ _ hret => cases hret

/-- The value that is returned, if one is. -/
def Run.returned? : Except Failure Completion → Option Value
  | .ok (.ret v) => some v
  | _ => none

/-- A completion that has returned a value is a return of that value. -/
theorem Run.eq_ret_of_returned? {r : Except Failure Completion} {v : Value}
    (h : returned? r = some v) : r = .ok (.ret v) := by
  unfold returned? at h
  split at h
  · cases h
    rfl
  · cases h

namespace Session

/-- The checker is right about the paths through statements, and statements are left only through
their exits. So in a program that was loaded without diagnostics the body of a function finishes
with a `return`, or normally if the function is void, and a statement at top level finishes
normally, wherever they are executed. -/
theorem completions_sound :
    (∀ site, Run.Disciplined site) ∧
    ∀ (natives : Natives) source filename host context time s, natives.Registered →
      load source filename (start natives host context time) = (.ok (), s) → s.diagnostics = [] →
      ∃ p, s.program = some p ∧
        (∀ d ∈ p.functions, ∃ f, d.toFunction = .ok f ∧ ∀ site m c,
          (Run.inBlock (Run.execBody site d.body) m).1 = .ok c → d.Completes site f.returns c) ∧
        ∀ st ∈ p.statements, ∀ site m c, (Run.exec site st m).1 = .ok c → c = .normal := by
  refine ⟨Run.disciplined, ?_⟩
  intro natives source filename host context time s hn hload hd
  obtain ⟨p, s₀, -, -, L⟩ := loaded_of_load hn hload hd
  refine ⟨p, L.program_eq, ?_, ?_⟩
  · intro d hdecl
    obtain ⟨f, hf⟩ := L.wellTyped.functions d hdecl
    exact ⟨f, hf.function, fun site m c hc => hf.completes hc⟩
  · intro st hst site m c hc
    exact L.wellTyped.finishes_normal hst hc

/-- A program with a block in which a `break` comes before the `return`. -/
def breakingSource : String :=
  "int f(int n) \x7b while n > 0 \x7b n -= 1; if n < 3 \x7b break; return n; \x7d" ++
    " else return 10 * n; \x7d return n; \x7d let n = 3; print(f(n));"

/-- The body of its function returns 2 at the last moment of the evaluation, where `n` is 3. -/
theorem completions_sound_breaking :
    ∃ s p d f ev v, load breakingSource none (start Console.natives {} none "") = (.ok (), s) ∧
      s.diagnostics = [] ∧ s.program = some p ∧ d ∈ p.functions ∧ d.toFunction = .ok f ∧
      ev ∈ s.evaluation ⟨8, 8⟩ ∧ v.text = "2" ∧
      (Run.inBlock (Run.execBody (p.runSite ⟨8, 8⟩) d.body) ev.machine).1 = .ok (.ret v) ∧
      d.Completes (p.runSite ⟨8, 8⟩) f.returns (.ret v) := by
  obtain ⟨s, hload, hd, hlast⟩ : ∃ s, load breakingSource none (start Console.natives {} none "") =
      (.ok (), s) ∧ s.diagnostics = [] ∧ (s.program.bind fun p => p.functions.head?.bind fun d =>
        (s.evaluation ⟨8, 8⟩).getLast?.bind fun ev =>
          Run.returned? (Run.inBlock (Run.execBody (p.runSite ⟨8, 8⟩) d.body) ev.machine).1).map
            Value.text = some "2" := exists_of_quiet_and (by decide +kernel)
  obtain ⟨v, hlast, htext⟩ := Option.map_eq_some_iff.mp hlast
  obtain ⟨p, hp, hlast⟩ := Option.bind_eq_some_iff.mp hlast
  obtain ⟨d, hdecl, hlast⟩ := Option.bind_eq_some_iff.mp hlast
  obtain ⟨ev, hev, hlast⟩ := Option.bind_eq_some_iff.mp hlast
  have hresult := Run.eq_ret_of_returned? hlast
  obtain ⟨p', hp', hfunctions, -⟩ := completions_sound.2 Console.natives breakingSource none {} none
    "" s Console.natives_registered hload hd
  obtain rfl : p = p' := Option.some.inj (hp.symm.trans hp')
  have hmem := List.mem_of_head? hdecl
  obtain ⟨f, hf, hcompletes⟩ := hfunctions d hmem
  exact ⟨s, p, d, f, ev, v, hload, hd, hp, hmem, hf, List.mem_of_getLast? hev, htext, hresult,
    hcompletes _ _ _ hresult⟩

end Session

end Pigeon
