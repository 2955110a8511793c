import Pigeon.Proofs.Step
import Pigeon.Proofs.Typing.Rules
import Pigeon.Typing.Program

/-!
# Ways out of a statement

A statement is left before its end by a `break`, a `continue` or a `return` in it. A loop uses up
the first two, so `Stmt.Exits s x` says that `x` stands in `s` and, unless it is a `return`, that no
loop in `s` is around it.

The rules of the language say which exits a statement may have (`Stmt.permitted_of_exits`). The
checker says of a statement that it returns only if every path through it does
(`Check.checkStmt_returns`), whatever it knows and whatever it reports.
-/

namespace Pigeon

open Step

/-- A way out of a statement, as it is written in the source. -/
inductive Exit where
  | brk
  | cont
  | ret (value : Option Expr)

mutual

/-- The exit stands in the statement and leads out of it. -/
inductive Stmt.Exits : Stmt → Exit → Prop
  | brk {sp} : Stmt.Exits (.brk sp) .brk
  | cont {sp} : Stmt.Exits (.cont sp) .cont
  | ret {value sp} : Stmt.Exits (.ret value sp) (.ret value)
  | block {b x} : Stmt.SomeExits b.stmts x → Stmt.Exits (.block b) x
  | ifThen {c y sp x} : Stmt.SomeExits y.stmts x → Stmt.Exits (.ifThen c y sp) x
  | yes {c y n sp x} : Stmt.SomeExits y.stmts x → Stmt.Exits (.ifThenElse c y n sp) x
  | no {c y n sp x} : Stmt.SomeExits n.stmts x → Stmt.Exits (.ifThenElse c y n sp) x
  | whileDo {c b sp value} : Stmt.SomeExits b.stmts (.ret value) →
      Stmt.Exits (.whileDo c b sp) (.ret value)
  | doWhile {b c sp value} : Stmt.SomeExits b.stmts (.ret value) →
      Stmt.Exits (.doWhile b c sp) (.ret value)
  | forCount {counter start bound direction b sp value} : Stmt.SomeExits b.stmts (.ret value) →
      Stmt.Exits (.forCount counter start bound direction b sp) (.ret value)

/-- The exit leads out of one of the statements. -/
inductive Stmt.SomeExits : List Stmt → Exit → Prop
  | here {s ss x} : Stmt.Exits s x → Stmt.SomeExits (s :: ss) x
  | later {s ss x} : Stmt.SomeExits ss x → Stmt.SomeExits (s :: ss) x

end

/-! ## Exits that the rules permit -/

/-- The rules permit the exit in a function with the result type `ret`, if there is one, where
`loop` says whether a loop is around it. -/
inductive Exit.Permitted (Δ : Globals) (ret : Option Ty) : Bool → Exit → Prop
  | brk : Permitted Δ ret true .brk
  | cont : Permitted Δ ret true .cont
  | void {loop} : ret = some .void → Permitted Δ ret loop (.ret none)
  | value {loop Γ e t} : HasType Δ Γ e t → t ≠ .void → ret = some t →
      Permitted Δ ret loop (.ret (some e))

section Permitted

variable {Δ : Globals} {ret : Option Ty}

/-- It does not matter to a `return` whether a loop is around it. -/
theorem Exit.Permitted.of_ret {value : Option Expr} {loop loop' : Bool}
    (h : Exit.Permitted Δ ret loop (.ret value)) : Exit.Permitted Δ ret loop' (.ret value) := by
  cases h with
  | void hret => exact .void hret
  | value he ht hret => exact .value he ht hret

mutual

/-- The rules permit the exits of a statement that follows them. -/
theorem Stmt.permitted_of_exits : ∀ (s : Stmt) {x : Exit} {loop : Bool} {Γ Γ' : Context},
    s.Exits x → StmtTyped Δ ret loop Γ s Γ' → x.Permitted Δ ret loop
  | .block ⟨ss, _, _⟩, _, _, _, _, hx, hs => by
      cases hx with
      | block hx =>
          cases hs with
          | block hs => exact permitted_of_someExits ss hx hs
  | .ifThen _ ⟨ss, _, _⟩ _, _, _, _, _, hx, hs => by
      cases hx with
      | ifThen hx =>
          cases hs with
          | ifThen _ hs => exact permitted_of_someExits ss hx hs
  | .ifThenElse _ ⟨yes, _, _⟩ ⟨no, _, _⟩ _, _, _, _, _, hx, hs => by
      cases hs with
      | ifThenElse _ hyes hno =>
          cases hx with
          | yes hx => exact permitted_of_someExits yes hx hyes
          | no hx => exact permitted_of_someExits no hx hno
  -- out of a loop lead only the returns in its body, and what is permitted to a return inside the loop
  -- is permitted outside of it
  | .whileDo _ ⟨ss, _, _⟩ _, _, _, _, _, hx, hs => by
      cases hx with
      | whileDo hx =>
          cases hs with
          | whileDo _ hs => exact (permitted_of_someExits ss hx hs).of_ret
  | .doWhile ⟨ss, _, _⟩ _ _, _, _, _, _, hx, hs => by
      cases hx with
      | doWhile hx =>
          cases hs with
          | doWhile hs _ => exact (permitted_of_someExits ss hx hs).of_ret
  | .forCount _ _ _ _ ⟨ss, _, _⟩ _, _, _, _, _, hx, hs => by
      cases hx with
      | forCount hx =>
          cases hs with
          | forCount _ _ hs => exact (permitted_of_someExits ss hx hs).of_ret
  | .ret _ _, _, _, _, _, hx, hs => by
      cases hx
      cases hs with
      | retVoid hret => exact .void hret
      | ret he ht hret => exact .value he ht hret
  | .brk _, _, _, _, _, hx, hs => by
      cases hx
      cases hs
      exact .brk
  | .cont _, _, _, _, _, hx, hs => by
      cases hx
      cases hs
      exact .cont
  | .declare .., _, _, _, _, hx, _ | .assign .., _, _, _, _, hx, _ | .call .., _, _, _, _, hx, _
  | .other .., _, _, _, _, hx, _ => nomatch hx

/-- The exits of statements in a row that follow the rules are permitted. -/
theorem Stmt.permitted_of_someExits : ∀ (ss : List Stmt) {x : Exit} {loop : Bool} {Γ Γ' : Context},
    Stmt.SomeExits ss x → StmtsTyped Δ ret loop Γ ss Γ' → x.Permitted Δ ret loop
  | [], _, _, _, _, hx, _ => nomatch hx
  | s :: ss, _, _, _, _, hx, hs => by
      cases hs with
      | cons hfirst hrest =>
          cases hx with
          | here hx => exact permitted_of_exits s hx hfirst
          | later hx => exact permitted_of_someExits ss hx hrest

end

end Permitted

/-! ## Statements of which the checker says that they return -/

namespace Check

/-- A clean-up gives no result of its own. -/
theorem andFinally_only {α : Type} {x : Check α} {Q : α → Prop} (h : Only x Q)
    (cleanUp : Check Unit) : Only (andFinally x cleanUp) Q := by
  intro c
  have hc := h c
  unfold Yields andFinally at *
  rcases hx : x c with ⟨r, t⟩
  rw [hx] at hc
  dsimp only
  rcases cleanUp t with ⟨r', u⟩
  cases r' with
  | error e => trivial
  | ok v =>
      cases r with
      | ok a => exact hc
      | error e => trivial

/-- A block has the results of its body. -/
theorem inBlock_only {α : Type} {x : Check α} {Q : α → Prop} (h : Only x Q) : Only (inBlock x) Q :=
  .seq fun _ => andFinally_only h _

mutual

/-- If the checker says of a statement that it returns, every path through it does, whatever the
checker knows and reports. -/
theorem checkStmt_returns (site : CheckSite) :
    ∀ s : Stmt, Only (checkStmt site s) fun r => r = true → s.Returns
  | .block b => inBlock_only ((checkBody_returns site b).mono fun _ h hr => .block (h hr))
  | .ifThenElse _ yes no _ =>
      .seq fun _ => .seq fun _ => (inBlock_only (checkBody_returns site yes)).bind fun _ hyes =>
        (inBlock_only (checkBody_returns site no)).bind fun _ hno => .pure fun hr => by
          obtain ⟨hyes', hno'⟩ := Bool.and_eq_true_iff.mp hr
          exact .ifThenElse (hyes hyes') (hno hno')
  | .ret none _ => .seq fun _ => .pure fun _ => .ret
  | .ret (some _) _ => .seq fun _ => .seq fun _ => .pure fun _ => .ret
  | .declare .. | .assign .. | .call .. => .seq fun _ => .pure nofun
  | .ifThen .. | .whileDo .. | .doWhile .. => .seq fun _ => .seq fun _ => .seq fun _ => .pure nofun
  | .forCount .. => .seq fun _ => .seq fun _ =>
      inBlock_only (.seq fun _ => .seq fun _ => .seq fun _ => .seq fun _ => .pure nofun)
  | .brk _ | .cont _ => by
      unfold checkStmt
      split
      · exact .seq fun _ => .pure nofun
      · exact .pure nofun
  | .other .. => .throw

/-- The check says that a body returns only if one of its statements does. -/
theorem checkBody_returns (site : CheckSite) :
    ∀ b : Block, Only (checkBody site b) fun r => r = true → Stmt.SomeReturns b.stmts
  | ⟨ss, _, _⟩ => checkStmts_returns site ss

/-- The same of statements in a row. -/
theorem checkStmts_returns (site : CheckSite) :
    ∀ ss : List Stmt, Only (checkStmts site ss) fun r => r = true → Stmt.SomeReturns ss
  | [] => .pure nofun
  | s :: ss => (checkStmt_returns site s).bind fun _ hfirst =>
      (checkStmts_returns site ss).bind fun _ hrest => .pure fun hr =>
        (Bool.or_eq_true_iff.mp hr).elim (.here <| hfirst ·) (.later <| hrest ·)

end

end Check

end Pigeon
