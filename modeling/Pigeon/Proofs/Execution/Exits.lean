import Pigeon.Execution.Program
import Pigeon.Proofs.Typing.Exits

/-!
# How statements finish

A statement that does not finish normally has been left through one of its exits, and finishes as
that exit says (`Run.exec_by`). A loop finishes normally or through a `return` of its body. A
statement of which every path returns does not finish normally (`Run.exec_of_returns`).

Nothing is assumed here of the program and of the machine, and calls may do what they like.
-/

namespace Pigeon

open Step

/-! ## Completions through exits -/

/-- How a statement finishes that is left through the exit. A `return` with an expression gives the
value that the expression had when it was left. -/
inductive Exit.Gives (site : RunSite) : Exit → Completion → Prop
  | brk : Gives site .brk .brk
  | cont : Gives site .cont .cont
  | void : Gives site (.ret none) (.ret .void)
  | value {e v m m'} : Run.eval site e m = (.ok v, m') → Gives site (.ret (some e)) (.ret v)

/-- The completion is normal, or it is that of one of the exits. -/
def Completion.By (site : RunSite) (exits : Exit → Prop) (c : Completion) : Prop :=
  c = .normal ∨ ∃ x, exits x ∧ x.Gives site c

namespace Completion.By

variable {site : RunSite} {exits exits' : Exit → Prop} {c : Completion}

/-- What one set of exits explains, a larger one does. -/
theorem mono (h : c.By site exits) (hexits : ∀ x, exits x → exits' x) : c.By site exits' :=
  h.imp_right fun ⟨x, hx, hc⟩ => ⟨x, hexits x hx, hc⟩

/-- What ends a loop is normal, or it comes from a `return` of the body. -/
theorem afterRound {σ : Type} {next : σ} (h : c.By site exits) {c' : Completion}
    (hc : Run.afterRound next c = .inl c') :
    c'.By site fun x => ∃ value, x = .ret value ∧ exits x := by
  cases c with
  | normal => cases hc
  | cont => cases hc
  | brk =>
      cases hc
      exact .inl rfl
  | ret v =>
      cases hc
      obtain hnormal | ⟨x, hx, hgives⟩ := h
      · cases hnormal
      · cases hgives with
        | void => exact .inr ⟨_, ⟨none, rfl, hx⟩, .void⟩
        | value heval => exact .inr ⟨_, ⟨_, rfl, hx⟩, .value heval⟩

end Completion.By

namespace Run

variable {α σ : Type} {site : RunSite}

/-! ## Rules for composed steps -/

/-- A clean-up gives no result of its own. -/
theorem andFinally_only {x : Run α} {Q : α → Prop} (h : Only x Q) (cleanUp : Run Unit) :
    Only (andFinally x cleanUp) Q := by
  intro m
  have hm := h m
  unfold Yields andFinally at *
  rcases hx : x m with ⟨r, t⟩
  rw [hx] at hm
  dsimp only
  rcases cleanUp t with ⟨r', u⟩
  cases r' with
  | error e => trivial
  | ok v =>
      cases r with
      | ok a => exact hm
      | error e => trivial

/-- A block has the results of its body. -/
theorem inBlock_only {x : Run α} {Q : α → Prop} (h : Only x Q) : Only (inBlock x) Q :=
  .seq fun _ => andFinally_only h _

/-- A loop ends with the completion of one of its rounds. -/
theorem iterate_only {step : σ → Run (Completion ⊕ σ)} {Q : Completion → Prop}
    (h : ∀ s, Only (step s) fun r => ∀ c, r = .inl c → Q c) :
    ∀ (rounds : Nat) (s : σ), Only (iterate step rounds s) Q
  | 0, _ => .throw
  | rounds + 1, s => by
      refine (h s).bind fun r hr => ?_
      cases r with
      | inl c => exact .pure (hr c rfl)
      | inr s' => exact iterate_only h rounds s'

section Loops

variable {exits : Exit → Prop} {body : Run Completion}

/-- A loop takes `break` and `continue` itself, so only a return of its body ends it early. -/
theorem whileLoop_by (hbody : Only body (·.By site exits)) (rounds : Nat) (test : Run Bool) :
    Only (whileLoop rounds test body) (·.By site fun x => ∃ value, x = .ret value ∧ exits x) := by
  refine iterate_only (fun _ => .seq fun b => ?_) rounds ()
  split
  · exact hbody.bind fun _ hc => .pure fun _ => hc.afterRound
  · exact .pure fun _ hc => .inl (Sum.inl.inj hc).symm

/-- The same of a loop that tests after its body. -/
theorem doLoop_by (hbody : Only body (·.By site exits)) (rounds : Nat) (test : Run Bool) :
    Only (doLoop rounds body test) (·.By site fun x => ∃ value, x = .ret value ∧ exits x) := by
  refine iterate_only (fun _ => hbody.bind fun c hc => ?_) rounds ()
  split
  · next c' hround =>
      refine .pure fun d hd => ?_
      cases hd
      exact hc.afterRound hround
  · refine .seq fun b => ?_
    split
    · exact .pure nofun
    · exact .pure fun _ hd => .inl (Sum.inl.inj hd).symm

/-- A round of a counting loop ends the loop early only by a return of its body. -/
theorem countRound_by (hbody : Only body (·.By site exits)) (counter : String)
    (direction : Direction) (bound : Run Int64) (n : Int64) :
    Only (countRound counter direction bound body n) fun r => ∀ c, r = .inl c →
      c.By site fun x => ∃ value, x = .ret value ∧ exits x := by
  refine .seq fun _ => .seq fun last => ?_
  split
  · exact .pure fun _ hc => .inl (Sum.inl.inj hc).symm
  · refine hbody.bind fun c hc => ?_
    split
    · next c' hround =>
        refine .pure fun d hd => ?_
        cases hd
        exact hc.afterRound hround
    · exact .seq fun _ => .seq fun _ => .pure nofun

/-- The same of a counting loop. -/
theorem countLoop_by (hbody : Only body (·.By site exits)) (rounds : Nat) (counter : String)
    (direction : Direction) (bound : Run Int64) (first : Int64) :
    Only (countLoop rounds counter direction bound body first)
      (·.By site fun x => ∃ value, x = .ret value ∧ exits x) :=
  inBlock_only (iterate_only (countRound_by hbody counter direction bound) rounds first)

end Loops

/-! ## Statements -/

mutual

/-- A statement finishes normally or through one of its exits. -/
theorem exec_by : ∀ s : Stmt, Only (exec site s) (·.By site s.Exits)
  | .block b => inBlock_only ((execBody_by b).mono fun _ h => h.mono fun _ => .block)
  | .ifThen _ yes _ => by
      refine .seq fun b => ?_
      split
      · exact inBlock_only ((execBody_by yes).mono fun _ h => h.mono fun _ => .ifThen)
      · exact .pure (.inl rfl)
  | .ifThenElse _ yes no _ => by
      refine .seq fun b => ?_
      split
      · exact inBlock_only ((execBody_by yes).mono fun _ h => h.mono fun _ => .yes)
      · exact inBlock_only ((execBody_by no).mono fun _ h => h.mono fun _ => .no)
  | .whileDo _ body _ => by
      refine (whileLoop_by (inBlock_only (execBody_by body)) _ _).mono fun _ h => h.mono ?_
      rintro _ ⟨value, rfl, hx⟩
      exact .whileDo hx
  | .doWhile body _ _ => by
      refine (doLoop_by (inBlock_only (execBody_by body)) _ _).mono fun _ h => h.mono ?_
      rintro _ ⟨value, rfl, hx⟩
      exact .doWhile hx
  | .forCount _ _ _ _ body _ => by
      refine .seq fun first => (countLoop_by (execBody_by body) _ _ _ _ _).mono fun _ h => h.mono ?_
      rintro _ ⟨value, rfl, hx⟩
      exact .forCount hx
  | .ret none _ => .pure (.inr ⟨_, .ret, .void⟩)
  | .ret (some e) _ => by
      -- the exit names the machine that the expression was evaluated in, so this is no `bind`
      intro m
      unfold exec Yields
      rw [bind_apply]
      rcases heval : eval site e m with ⟨r, m'⟩
      cases r with
      | error failure => trivial
      | ok v => exact .inr ⟨_, .ret, .value heval⟩
  | .brk _ => .pure (.inr ⟨_, .brk, .brk⟩)
  | .cont _ => .pure (.inr ⟨_, .cont, .cont⟩)
  | .declare .. => .seq fun _ => .seq fun _ => .pure (.inl rfl)
  | .assign .. | .call .. => .seq fun _ => .pure (.inl rfl)
  | .other .. => .throw

/-- A body is left early by one of its exits only. -/
theorem execBody_by : ∀ b : Block, Only (execBody site b) (·.By site (Stmt.SomeExits b.stmts))
  | ⟨ss, _, _⟩ => execStmts_by ss

/-- Statements in a row are left early by an exit of one of them only. -/
theorem execStmts_by : ∀ ss : List Stmt, Only (execStmts site ss) (·.By site (Stmt.SomeExits ss))
  | [] => .pure (.inl rfl)
  | s :: ss => by
      refine (exec_by s).bind fun c hc => ?_
      split
      · exact (execStmts_by ss).mono fun _ h => h.mono fun _ => .later
      · exact .pure (hc.mono fun _ => .here)

end

mutual

/-- A statement of which every path returns does not finish normally. It may still be left by a
`break` before a `return`. -/
theorem exec_of_returns : ∀ s : Stmt, s.Returns → Only (exec site s) (· ≠ .normal)
  | .block b, .block h => inBlock_only (execBody_of_returns b h)
  | .ifThenElse _ yes no _, .ifThenElse hyes hno => by
      refine .seq fun b => ?_
      split
      · exact inBlock_only (execBody_of_returns yes hyes)
      · exact inBlock_only (execBody_of_returns no hno)
  | .ret none _, .ret => .pure nofun
  | .ret (some _) _, .ret => .seq fun _ => .pure nofun

/-- A body in which some statement always returns does not end normally. -/
theorem execBody_of_returns :
    ∀ b : Block, Stmt.SomeReturns b.stmts → Only (execBody site b) (· ≠ .normal)
  | ⟨ss, _, _⟩, h => execStmts_of_returns ss h

/-- The same of statements in a row. -/
theorem execStmts_of_returns :
    ∀ ss : List Stmt, Stmt.SomeReturns ss → Only (execStmts site ss) (· ≠ .normal)
  | s :: _, .here h => by
      refine (exec_of_returns s h).bind fun c hc => ?_
      split
      · exact absurd rfl hc
      · exact .pure hc
  | _ :: ss, .later h => by
      refine .seq fun c => ?_
      split
      · exact execStmts_of_returns ss h
      · next hc => exact .pure hc

end

end Run

end Pigeon
