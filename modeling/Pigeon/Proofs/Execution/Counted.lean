import Pigeon.Proofs.Execution.Confined

/-!
# The rounds of a counted loop

A counted loop opens a block for each round, declares its counter there, and evaluates its bound
again. It is run here with a log of its tests and of the runs of its body; without the log it is the
loop (`Watched.forCount_erases`).

A log is *steady* if the bound is the same at all tests and the body always ends normally or with
`continue`. `Counts` then says what the loop does, round by round. How many rounds that are, and with
which counters, is a matter of arithmetic: the counter wraps, so no counter passes the last integer.
-/

namespace Pigeon

/-! ## Ranges -/

namespace Direction

/-- The last integer in the direction. -/
def last : Direction → Int64
  | up => Int64.maxValue
  | _ => Int64.minValue

/-- The number of integers from the first one up to the bound, or down to it. -/
def count (d : Direction) (first bound : Int64) : Nat :=
  match d with
  | up => (bound.toInt - first.toInt + 1).toNat
  | _ => (first.toInt - bound.toInt + 1).toNat

/-- The integer that is reached from the first one in `k` steps, if integers have no end. -/
def value (d : Direction) (first : Int64) (k : Nat) : Int :=
  match d with
  | up => first.toInt + k
  | _ => first.toInt - k

/-- An integer of 64 bits does not wrap. -/
theorem bmod_size {x : Int} (hlower : -0x8000000000000000 ≤ x) (hupper : x < 0x8000000000000000) :
    x.bmod Int64.size = x := by
  have hsize : Int64.size = 0x10000000000000000 := rfl
  apply Int.bmod_eq_of_le
  · omega
  · omega

variable {d : Direction} {n b : Int64} {k : Nat}

/-- A counter has passed the bound if there is no integer left. -/
theorem passed_iff_count_eq_zero : d.passed n b = true ↔ d.count n b = 0 := by
  cases d with
  | up =>
      simp only [passed, count, decide_eq_true_iff, Int64.lt_iff_toInt_lt]
      omega
  | _ =>
      simp only [passed, count, decide_eq_true_iff, Int64.lt_iff_toInt_lt]
      omega

/-- No counter passes the last integer. -/
theorem passed_last : d.passed n d.last = false := by
  have hn := And.intro n.le_toInt n.toInt_lt
  cases d with
  | up =>
      simp only [passed, last, decide_eq_false_iff_not, Int64.lt_iff_toInt_lt, Int64.toInt_maxValue]
      omega
  | _ =>
      simp only [passed, last, decide_eq_false_iff_not, Int64.lt_iff_toInt_lt, Int64.toInt_minValue]
      omega

/-- Before the first step the counter has its start. -/
theorem bmod_value_zero : (d.value n 0).bmod Int64.size = n.toInt := by
  have hvalue : d.value n 0 = n.toInt := by
    cases d with
    | up => exact Int.add_zero _
    | _ => exact Int.sub_zero _
  rw [hvalue]
  exact bmod_size n.le_toInt n.toInt_lt

/-- A step of the counter wraps. -/
theorem toInt_add_step (d : Direction) (n : Int64) :
    (n + d.step).toInt = (d.value n 1).bmod Int64.size := by
  cases d with
  | up => exact Int64.toInt_add n 1
  | _ => exact Int64.toInt_add n (-1)

/-- The integers that are reached from the next counter. -/
theorem bmod_value_succ :
    (d.value (n + d.step) k).bmod Int64.size = (d.value n (k + 1)).bmod Int64.size := by
  have hstep := toInt_add_step d n
  cases d with
  | up =>
      simp only [value] at hstep ⊢
      rw [hstep, Int.bmod_add_bmod]
      exact congrArg (Int.bmod · _) (by omega)
  | _ =>
      simp only [value] at hstep ⊢
      rw [hstep, Int.bmod_sub_bmod]
      exact congrArg (Int.bmod · _) (by omega)

/-- The integers up to the bound, or down to it, do not wrap. -/
theorem bmod_value_eq (h : k < d.count n b) : (d.value n k).bmod Int64.size = d.value n k := by
  have hn := And.intro n.le_toInt n.toInt_lt
  have hb := And.intro b.le_toInt b.toInt_lt
  cases d with
  | up =>
      simp only [count, value] at h ⊢
      exact bmod_size (by omega) (by omega)
  | _ =>
      simp only [count, value] at h ⊢
      exact bmod_size (by omega) (by omega)

/-- Before the bound is passed, the next counter leaves one integer less. -/
theorem count_eq_add_one (h : d.passed n b = false) (hlast : b ≠ d.last) :
    d.count n b = d.count (n + d.step) b + 1 := by
  have hn := And.intro n.le_toInt n.toInt_lt
  have hb := And.intro b.le_toInt b.toInt_lt
  have hstep := toInt_add_step d n
  rw [ne_eq, ← Int64.toInt_inj] at hlast
  -- the counter is not the last integer, so the step does not wrap
  cases d with
  | up =>
      simp only [passed, last, decide_eq_false_iff_not, Int64.lt_iff_toInt_lt,
        Int64.toInt_maxValue] at h hlast
      simp only [value] at hstep
      rw [bmod_size (by omega) (by omega)] at hstep
      simp only [count, hstep]
      omega
  | _ =>
      simp only [passed, last, decide_eq_false_iff_not, Int64.lt_iff_toInt_lt,
        Int64.toInt_minValue] at h hlast
      simp only [value] at hstep
      rw [bmod_size (by omega) (by omega)] at hstep
      simp only [count, hstep]
      omega

end Direction

/-! ## The log of a loop -/

/-- What happens in a counted loop. -/
inductive LoopEvent where
  /-- The bound has been evaluated for a test. -/
  | test (r : Except Failure Int64)
  /-- The body is started. -/
  | start (m : Machine)
  /-- The body has ended. -/
  | stop (r : Except Failure Completion)

namespace LoopEvent

/-- A test finds the bound `b`, and the body ends normally or with `continue`. -/
def steady (b : Int64) : LoopEvent → Bool
  | test (.ok n) => n = b
  | start _ | stop (.ok .normal) | stop (.ok .cont) => true
  | _ => false

/-- The machines with which the body was started. -/
def starts (log : List LoopEvent) : List Machine :=
  log.filterMap fun
    | start m => some m
    | _ => none

/-- The rounds that start in a log of two parts are those of both parts in turn. -/
theorem starts_append (log log' : List LoopEvent) :
    starts (log ++ log') = starts log ++ starts log' :=
  List.filterMap_append

end LoopEvent

/-- A step of a counted loop, with a log. -/
abbrev Watched (α : Type) := Logged LoopEvent Machine α

namespace Watched

open Logged

/-- The rest of a round after its test, with the counter of the next one. -/
def runBody (body : Run Completion) (next : Int64) : Watched (Completion ⊕ Int64) := do
  note .start
  match Run.afterRound next (← watch .stop body) with
  | .inl c => return .inl c
  | .inr next =>
    lift Run.exit
    lift Run.enter
    return .inr next

/-- One round of a counted loop with the counter at `n`. -/
def countRound (counter : String) (direction : Direction) (bound : Run Int64)
    (body : Run Completion) (n : Int64) : Watched (Completion ⊕ Int64) := do
  lift (Run.declare { name := counter, ty := some .int, value := some (.int n) })
  if direction.passed n (← watch .test bound) then return .inl .normal
  else runBody body (n + direction.step)

/-- The rounds of a counted loop from the counter `n` on, in the block that is open. -/
def countRounds (counter : String) (direction : Direction) (bound : Run Int64)
    (body : Run Completion) : (rounds : Nat) → (n : Int64) → Watched Completion
  | 0, _ => throw .unfinished
  | rounds + 1, n => do
    match ← countRound counter direction bound body n with
    | .inl c => return c
    | .inr next => countRounds counter direction bound body rounds next

/-- A counted loop, from the evaluation of its start on. -/
def forCount (site : RunSite) (counter : String) (start bound : Expr) (direction : Direction)
    (body : Block) : Watched Completion := do
  let first ← lift (Run.evalInt site start)
  lift Run.enter
  andFinally (countRounds counter direction (Run.evalInt site bound) (Run.execBody site body)
    site.rounds first) Run.exit

/-- Watching a round changes nothing about what it does. -/
theorem countRound_erases (counter : String) (direction : Direction) (bound : Run Int64)
    (body : Run Completion) (n : Int64) :
    Erases (countRound counter direction bound body n)
      (Run.countRound counter direction bound body n) := by
  refine .bind (.lift _) fun _ => .bind (.watch _ _) fun last => ?_
  split
  · exact .pure _
  · refine .note (.bind (.watch _ _) fun c => ?_)
    cases Run.afterRound (n + direction.step) c with
    | inl c => exact .pure _
    | inr next => exact .bind (.lift _) fun _ => .bind (.lift _) fun _ => .pure _

/-- Watching rounds changes nothing about what they do. -/
theorem countRounds_erases (counter : String) (direction : Direction) (bound : Run Int64)
    (body : Run Completion) : ∀ (rounds : Nat) (n : Int64),
      Erases (countRounds counter direction bound body rounds n)
        (Run.iterate (Run.countRound counter direction bound body) rounds n)
  | 0, _ => .throw _
  | rounds + 1, n => by
      refine .bind (countRound_erases counter direction bound body n) fun r => ?_
      cases r with
      | inl c => exact .pure c
      | inr next => exact countRounds_erases counter direction bound body rounds next

/-- Without its log, the loop is the statement. -/
theorem forCount_erases (site : RunSite) (counter : String) (start bound : Expr)
    (direction : Direction) (body : Block) (sp : Option Span) :
    Erases (forCount site counter start bound direction body)
      (Run.exec site (.forCount counter start bound direction body sp)) := by
  refine .bind (.lift _) fun first => .bind (.lift _) fun _ => ?_
  exact Trace.andFinally_erases (countRounds_erases counter direction _ _ site.rounds first) _

end Watched

/-! ## What the rounds do -/

/-- The environment of an integer variable. -/
def Environment.ofInt (name : String) (v : Int64) : Environment :=
  Function.update Environment.empty name
    (some (.var { name := name, ty := some .int, value := some (.int v) }))

/-- The innermost block of the current frame holds an integer variable, and nothing else. -/
def Machine.HoldsOnly (m : Machine) (name : String) (v : Int64) : Prop :=
  ∃ f rest h hs, m.frames = f :: rest ∧ f.blocks = h :: hs ∧
    Scopes.environment m.arena h = .ofInt name v

/-- What a counted loop does from the counter `n` on, if the bound is `b` at all tests and the body
does not leave the loop: the machines with which the body is started, one for each round, and how
the loop ends if it makes at most `rounds` tests. -/
inductive Counts (counter : String) (d : Direction) (b : Int64) :
    (rounds : Nat) → (n : Int64) → List Machine → Except Failure Completion → Prop
  | cut {n} : Counts counter d b 0 n [] (.error .unfinished)
  | passed {rounds n} : d.passed n b = true → Counts counter d b (rounds + 1) n [] (.ok .normal)
  | round {rounds n m ms r} : d.passed n b = false → m.HoldsOnly counter n →
      Counts counter d b rounds (n + d.step) ms r → Counts counter d b (rounds + 1) n (m :: ms) r

/-- The body of a loop was started so many times. In the `k`-th round, counted from 0, the innermost
block held the counter with the value `value k`, and nothing else. -/
structure LoopEvent.Rounds (log : List LoopEvent) (counter : String) (rounds : Nat)
    (value : Nat → Int) : Prop where
  length_eq : (starts log).length = rounds
  holdsOnly : ∀ k m, (starts log)[k]? = some m → ∃ v, v.toInt = value k ∧ m.HoldsOnly counter v

/-- What a counted loop from `a` to the bound `b` does if it makes at most `limit` tests: there is a
round for each integer of the range, and the loop ends normally when the counter has passed the
bound, unless it is cut off before. The last integer cannot be passed. -/
structure LoopEvent.Counted (counter : String) (d : Direction) (a b : Int64) (limit : Nat)
    (log : List LoopEvent) (r : Except Failure Completion) : Prop where
  ends : b ≠ d.last → d.count a b < limit →
    r = .ok .normal ∧ Rounds log counter (d.count a b) (d.value a)
  cut : b ≠ d.last → limit ≤ d.count a b →
    r = .error .unfinished ∧ Rounds log counter limit (d.value a)
  wraps : b = d.last →
    r = .error .unfinished ∧ Rounds log counter limit fun k => (d.value a k).bmod Int64.size

namespace Counts

variable {counter : String} {d : Direction} {b n : Int64} {rounds : Nat} {ms : List Machine}
  {r : Except Failure Completion}

/-- The counter of each round is one step further than that of the round before. -/
theorem holdsOnly (h : Counts counter d b rounds n ms r) {k : Nat} {m : Machine}
    (hk : ms[k]? = some m) :
    ∃ v, v.toInt = (d.value n k).bmod Int64.size ∧ m.HoldsOnly counter v := by
  induction h generalizing k with
  | cut => cases hk
  | passed _ => cases hk
  | @round rounds n m' ms r _ hfirst _ ih =>
      cases k with
      | zero =>
          obtain rfl : m' = m := Option.some.inj hk
          exact ⟨n, Direction.bmod_value_zero.symm, hfirst⟩
      | succ k =>
          rw [← Direction.bmod_value_succ]
          exact ih hk

/-- Towards a bound that can be passed, there is a round for each integer, and then the loop ends. -/
theorem ends (h : Counts counter d b rounds n ms r) (hlast : b ≠ d.last) :
    ms.length = min (d.count n b) rounds ∧
      r = if d.count n b < rounds then .ok .normal else .error .unfinished := by
  induction h with
  | cut =>
      constructor
      · exact (Nat.min_zero _).symm
      · rw [if_neg (Nat.not_lt_zero _)]
  | passed hpassed =>
      rw [Direction.passed_iff_count_eq_zero.mp hpassed]
      constructor
      · exact (Nat.zero_min _).symm
      · rw [if_pos (Nat.zero_lt_succ _)]
  | round hpassed _ _ ih =>
      rw [Direction.count_eq_add_one hpassed hlast, List.length_cons, ih.1, ih.2]
      constructor
      · omega
      · simp only [Nat.add_lt_add_iff_right]

/-- Towards the last integer, the loop goes on as long as it may. -/
theorem goes_on (h : Counts counter d d.last rounds n ms r) :
    ms.length = rounds ∧ r = .error .unfinished := by
  generalize hb : d.last = b at h
  induction h with
  | cut => exact ⟨rfl, rfl⟩
  | passed hpassed =>
      rw [← hb, Direction.passed_last] at hpassed
      cases hpassed
  | round _ _ _ ih =>
      constructor
      · rw [List.length_cons, ih.1]
      · exact ih.2

/-- The rounds in closed form. -/
theorem counted {log : List LoopEvent} (h : Counts counter d b rounds n (LoopEvent.starts log) r) :
    LoopEvent.Counted counter d n b rounds log r := by
  -- as long as the rounds are in the range, no counter wraps
  have hvalue : b ≠ d.last → ∀ k m, (LoopEvent.starts log)[k]? = some m →
      ∃ v, v.toInt = d.value n k ∧ m.HoldsOnly counter v := by
    intro hlast k m hk
    have hlt : k < d.count n b := by
      have hk' := (List.getElem?_eq_some_iff.mp hk).1
      rw [(h.ends hlast).1] at hk'
      omega
    rw [← Direction.bmod_value_eq hlt]
    exact h.holdsOnly hk
  constructor
  · intro hlast hlt
    obtain ⟨hlength, hr⟩ := h.ends hlast
    rw [if_pos hlt] at hr
    exact ⟨hr, by omega, hvalue hlast⟩
  · intro hlast hle
    obtain ⟨hlength, hr⟩ := h.ends hlast
    rw [if_neg (Nat.not_lt.mpr hle)] at hr
    exact ⟨hr, by omega, hvalue hlast⟩
  · rintro rfl
    obtain ⟨hlength, hr⟩ := h.goes_on
    exact ⟨hr, hlength, fun _ _ => h.holdsOnly⟩

end Counts

/-! ## The blocks of a loop -/

namespace Machine

variable {base : Environment} {F : List (List Environment)} {m : Machine}

/-- The innermost block of the current frame is empty, and there is another one around it. -/
def Renewed (base : Environment) (F : List (List Environment)) (m : Machine) : Prop :=
  ∃ f, f ≠ [] ∧ m.Retains base ((.empty :: f) :: F)

/-- There is a block around the innermost one of the current frame. -/
def Nested (base : Environment) (F : List (List Environment)) (m : Machine) : Prop :=
  ∃ e f, f ≠ [] ∧ m.Retains base ((e :: f) :: F)

theorem Renewed.nested (h : m.Renewed base F) : m.Nested base F := ⟨_, h⟩

/-- A block that has the counter alone holds its value, and nothing else. -/
theorem Retains.holdsOnly {name : String} {v : Int64} {f : List Environment}
    (h : m.Retains base ((.ofInt name v :: f) :: F)) : m.HoldsOnly name v := by
  obtain ⟨n, S, -, hframes⟩ := h
  have hview : m.frames.map (fun fr => fr.blocks.map (Scopes.environment m.arena)) =
      (.ofInt name v :: f) :: F := by
    rw [← hframes, ← S.view_eq]
    rfl
  obtain ⟨fr, rest, hfr, hblocks, -⟩ := List.map_eq_cons_iff.mp hview
  obtain ⟨h, hs, hh, henv, -⟩ := List.map_eq_cons_iff.mp hblocks
  exact ⟨fr, rest, h, hs, hfr, hh, henv⟩

end Machine

namespace Run

open Step

variable {base : Environment} {F : List (List Environment)} {m : Machine} {f : List Environment}

/-- An operation that the environments of the current frame allow, and that changes no others. -/
theorem Performs.retains {x : Run Unit} {op : FrameOp} {answer : ScopeAnswer}
    (hx : Performs x op fun _ => answer) (hm : m.Retains base (f :: F)) (f' : List Environment)
    (hop : ∀ globals, Nest.onFrame globals f op = .ok (answer, globals, f')) :
    ∃ t, x m = (.ok (), t) ∧ t.Retains base (f' :: F) := by
  obtain ⟨n, S, hbase, hframes⟩ := hm
  have hstep : n.step (.onFrame 0 op) = (.ok answer, ⟨n.globals, f' :: F⟩) := by
    rw [Nest.step, hframes]
    simp only [List.getElem?_cons_zero, hop, List.set_cons_zero]
  obtain ⟨hanswer, T⟩ := S.onFrame op
  rw [hstep, ← hx.machine_eq] at T
  rw [hstep, ← hx.result_eq] at hanswer
  rcases heq : x m with ⟨r, t⟩
  rw [heq] at T hanswer
  cases r with
  | error e => cases hanswer
  | ok u => exact ⟨t, rfl, _, T, hbase, rfl⟩

/-- The innermost block can be closed and another one be opened in its place. -/
theorem renew_renewed (hm : m.Nested base F) :
    ∃ t u, exit m = (.ok (), t) ∧ enter t = (.ok (), u) ∧ u.Renewed base F := by
  obtain ⟨e, f, hf, hm⟩ := hm
  obtain ⟨e', f, rfl⟩ := List.exists_cons_of_ne_nil hf
  obtain ⟨t, hexit, ht⟩ := exit_performs.retains hm (e' :: f) fun _ => rfl
  obtain ⟨u, henter, hu⟩ := enter_performs.retains ht (.empty :: e' :: f) fun _ => rfl
  exact ⟨t, u, hexit, henter, e' :: f, hf, hu⟩

/-- The statements of a block leave as many blocks open as they find. -/
theorem execBody_nested {site : RunSite} (hregular : base.Regular Eq)
    (hcall : CallsLockstep Eq base site) (hretain : CallsRetain base site) (b : Block) :
    Keeps (Machine.Nested base F) (execBody site b) fun _ => True := by
  refine keeps_of_state ?_
  rintro m ⟨e, f, hf, hm⟩
  obtain ⟨f', n', T, hbase', hframes'⟩ := keeps_state (execBody_below hregular hretain b) ⟨_, hm⟩
  obtain ⟨n, S, hbase, hframes⟩ := hm
  obtain ⟨r, t, -, heq, -, -, hsame, -⟩ := execBody_lockstep hregular hcall b
    ⟨⟨n, S, S, hbase.revalues⟩, rfl⟩ (by rw [S.depth_eq, hframes]; exact Nat.succ_pos _)
  rw [heq] at T ⊢
  have hlength : f'.length = f.length + 1 := by
    have hdepth := hsame.depth_eq
    rw [T.depth_eq, S.depth_eq, hframes, hframes'] at hdepth
    exact hdepth
  obtain ⟨e', f', rfl⟩ := List.exists_cons_of_length_eq_add_one hlength
  refine ⟨e', f', ?_, n', T, hbase', hframes'⟩
  rw [← List.length_pos_iff] at hf ⊢
  rw [List.length_cons] at hlength
  omega

end Run

/-! ## Every loop counts -/

namespace Watched

open Logged Step

variable {base : Environment} {F : List (List Environment)} {m : Machine} {bound : Run Int64}
  {body : Run Completion} (counter : String) (direction : Direction) (b n : Int64)

/-- How a round with the counter `n` has ended, and what it has written to the log. -/
def RoundEnds (base : Environment) (F : List (List Environment)) (counter : String)
    (d : Direction) (b n : Int64) (t : Machine) (events : List LoopEvent) :
    Completion ⊕ Int64 → Prop
  | .inl c => t.Nested base F ∧ (events.all (·.steady b) = true →
      d.passed n b = true ∧ c = .normal ∧ LoopEvent.starts events = [])
  | .inr next => t.Renewed base F ∧ next = n + d.step ∧
      (events.all (·.steady b) = true → d.passed n b = false) ∧
      ∃ u, u.HoldsOnly counter n ∧ LoopEvent.starts events = [u]

/-- A completion of the body that is steady leads to the next round. -/
theorem afterRound_cases {σ : Type} (next : σ) (b : Int64) (c : Completion) :
    (∃ c', Run.afterRound next c = .inl c' ∧ (LoopEvent.stop (.ok c)).steady b = false) ∨
      Run.afterRound next c = .inr next := by
  cases c with
  | normal => exact .inr rfl
  | cont => exact .inr rfl
  | brk => exact .inl ⟨_, rfl, rfl⟩
  | ret v => exact .inl ⟨_, rfl, rfl⟩

/-- Whatever the body does, it leaves the block of the loop open, so that it can be renewed. -/
theorem runBody_yields (hbody : Keeps (Machine.Nested base F) body fun _ => True)
    (hm : m.Nested base F) (next : Int64) (log : List LoopEvent) :
    (runBody body next).Yields (m, log)
      (fun r s => ∃ c, s.2 = log ++ [.start m, .stop (.ok c)] ∧ match r with
        | .inl _ => s.1.Nested base F ∧ (LoopEvent.stop (.ok c)).steady b = false
        | .inr next' => s.1.Renewed base F ∧ next' = next)
      (fun e s => s.2 = log ++ [.start m, .stop (.error e)]) := by
  have hlog : ∀ r, log ++ [LoopEvent.start m] ++ [LoopEvent.stop r] =
      log ++ [LoopEvent.start m, .stop r] := fun _ => List.append_assoc _ _ _
  refine .bind_ok (note_apply _ _ _) ?_
  have ht := Run.keeps_state hbody hm
  rcases hrun : body m with ⟨result, t⟩
  rw [hrun] at ht
  cases result with
  | error e => exact .of_error (Step.bind_error (by rw [watch_apply, hrun])) (hlog _)
  | ok c =>
      refine .bind_ok (by rw [watch_apply, hrun]) ?_
      rcases afterRound_cases next b c with ⟨c', hafter, hleft⟩ | hafter
      · rw [hafter]
        exact .pure ⟨c, hlog _, ht, hleft⟩
      · rw [hafter]
        obtain ⟨u, v, hexit, henter, hv⟩ := Run.renew_renewed ht
        refine .bind_ok (by rw [lift_apply, hexit]) ?_
        refine .bind_ok (by rw [lift_apply, henter]) ?_
        exact .pure ⟨c, hlog _, hv, rfl⟩

/-- A round begins in an empty block, where it declares the counter. The bound does not change that
block, so the body is started with the counter alone. -/
theorem countRound_yields (hbound : ∀ F, Keeps (Machine.Retains base F) bound fun _ => True)
    (hbody : Keeps (Machine.Nested base F) body fun _ => True) (hm : m.Renewed base F)
    (log : List LoopEvent) :
    (countRound counter direction bound body n).Yields (m, log)
      (fun r s => ∃ events, s.2 = log ++ events ∧
        RoundEnds base F counter direction b n s.1 events r)
      (fun _ s => ∃ events, s.2 = log ++ events ∧ events.all (·.steady b) = false) := by
  obtain ⟨f, hf, hm⟩ := hm
  obtain ⟨t, hdeclare, ht⟩ :=
    (Run.declare_performs ⟨counter, some .int, false, some (.int n)⟩).retains hm
      (.ofInt counter n :: f) fun _ => rfl
  refine .bind_ok (by rw [lift_apply, hdeclare]) ?_
  have hu := Run.keeps_state (hbound _) ht
  rcases htest : bound t with ⟨last, u⟩
  rw [htest] at hu
  cases last with
  | error e =>
      -- a log with a test that failed is not steady
      refine .of_error (Step.bind_error (by rw [watch_apply, htest])) ?_
      exact ⟨[.test (.error e)], rfl, rfl⟩
  | ok last =>
      refine .bind_ok (by rw [watch_apply, htest]) ?_
      have hlog : ∀ r, log ++ [LoopEvent.test (.ok last)] ++ [LoopEvent.start u, .stop r] =
          log ++ [LoopEvent.test (.ok last), .start u, .stop r] := fun _ => List.append_assoc _ _ _
      split
      · next hpassed =>
          refine .pure ⟨[.test (.ok last)], rfl, ⟨_, f, hf, hu⟩, fun hsteady => ?_⟩
          obtain rfl : last = b := by simpa [LoopEvent.steady] using hsteady
          exact ⟨hpassed, rfl, rfl⟩
      · next hpassed =>
          refine (runBody_yields b hbody ⟨_, f, hf, hu⟩ _ _).mono ?_ ?_
          · rintro r ⟨v, log'⟩ ⟨c, rfl, hends⟩
            refine ⟨_, hlog _, ?_⟩
            cases r with
            | inl c' =>
                -- the body has left the loop, and is not steady then
                refine ⟨hends.1, fun hsteady => ?_⟩
                simp [hends.2] at hsteady
            | inr next =>
                refine ⟨hends.1, hends.2, fun hsteady => ?_, u, hu.holdsOnly, rfl⟩
                obtain ⟨rfl, -⟩ : last = b ∧ _ := by simpa [LoopEvent.steady] using hsteady
                simpa using hpassed
          · rintro e ⟨v, log'⟩ rfl
            exact ⟨_, hlog _, by simp [LoopEvent.steady]⟩

/-- What the rounds from the counter `n` on do, and what they write to the log. -/
def Follows (base : Environment) (F : List (List Environment)) (counter : String)
    (direction : Direction) (b : Int64) (rounds : Nat) (n : Int64) (log : List LoopEvent)
    (r : Except Failure Completion) (s : Machine × List LoopEvent) : Prop :=
  ∃ events, s.2 = log ++ events ∧ (events.all (·.steady b) = true →
    s.1.Nested base F ∧ Counts counter direction b rounds n (LoopEvent.starts events) r)

variable {counter direction b n}

/-- What follows the first round is what it has written, and what the others do. -/
theorem Follows.round {rounds : Nat} {next : Int64} {t : Machine} {log events : List LoopEvent}
    {r : Except Failure Completion} {s : Machine × List LoopEvent}
    (hends : RoundEnds base F counter direction b n t events (.inr next))
    (h : Follows base F counter direction b rounds next (log ++ events) r s) :
    Follows base F counter direction b (rounds + 1) n log r s := by
  obtain ⟨-, rfl, hpassed, u, hu, hstarts⟩ := hends
  obtain ⟨events', hlog, hcounts⟩ := h
  refine ⟨events ++ events', by rw [hlog, List.append_assoc], fun hsteady => ?_⟩
  rw [List.all_append, Bool.and_eq_true] at hsteady
  obtain ⟨hs, hrest⟩ := hcounts hsteady.2
  rw [LoopEvent.starts_append, hstarts]
  exact ⟨hs, .round (hpassed hsteady.1) hu hrest⟩

variable (counter direction b n)

/-- If the log of the rounds is steady, the loop counts. -/
theorem countRounds_yields (hbound : ∀ F, Keeps (Machine.Retains base F) bound fun _ => True)
    (hbody : Keeps (Machine.Nested base F) body fun _ => True) (hm : m.Renewed base F)
    (rounds : Nat) (log : List LoopEvent) :
    (countRounds counter direction bound body rounds n).Yields (m, log)
      (fun c => Follows base F counter direction b rounds n log (.ok c))
      (fun e => Follows base F counter direction b rounds n log (.error e)) := by
  induction rounds generalizing n m log with
  | zero => exact .throw ⟨[], (List.append_nil _).symm, fun _ => ⟨hm.nested, .cut⟩⟩
  | succ rounds ih =>
      have hround := countRound_yields counter direction b n hbound hbody hm log
      refine .bind (hround.mono (fun _ _ h => h) ?_) ?_
      · rintro e s ⟨events, hlog, hunsteady⟩
        refine ⟨events, hlog, fun hsteady => ?_⟩
        rw [hsteady] at hunsteady
        cases hunsteady
      · rintro r ⟨t, log'⟩ ⟨events, rfl, hends⟩
        cases r with
        | inl c =>
            obtain ⟨ht, hends⟩ := hends
            refine .pure ⟨events, rfl, fun hsteady => ⟨ht, ?_⟩⟩
            obtain ⟨hpassed, rfl, hstarts⟩ := hends hsteady
            rw [hstarts]
            exact .passed hpassed
        | inr next =>
            exact (ih next hends.1 _).mono (fun _ _ => .round hends) fun _ _ => .round hends

end Watched

/-- The log of a counted loop that is run from the machine on. -/
def Program.loopLog (p : Program) (limits : Limits) (counter : String) (start bound : Expr)
    (direction : Direction) (body : Block) (m : Machine) : List LoopEvent :=
  (Watched.forCount (p.runSite limits) counter start bound direction body (m, [])).2.2

/-- A counted loop from `a` on counts, if its log is steady. -/
theorem Program.forCount_counted {base : Environment} {F : List (List Environment)}
    {f : List Environment} {m : Machine} {a b : Int64} (hregular : base.Regular Eq)
    (hm : m.Retains base (f :: F)) (hf : f ≠ []) (p : Program) (limits : Limits) (counter : String)
    (start bound : Expr) (direction : Direction) (body : Block) (sp : Option Span)
    (hstart : (Run.evalInt (p.runSite limits) start m).1 = .ok a)
    (hsteady : ∀ e ∈ p.loopLog limits counter start bound direction body m, e.steady b = true) :
    LoopEvent.Counted counter direction a b limits.rounds
      (p.loopLog limits counter start bound direction body m)
      (Run.exec (p.runSite limits) (.forCount counter start bound direction body sp) m).1 := by
  have hcall := p.runSite_lockstep hregular limits
  have hretain := Run.callDeclared_retains hregular p.filename limits.rounds limits.calls
  have hint : ∀ F e, Step.Keeps (Machine.Retains base F) (Run.evalInt (p.runSite limits) e)
      fun _ => True := fun F e =>
    .bind (Run.eval_retains hregular hretain e) fun _ _ => Run.expectInt_keeps _ _
  have ht := Run.keeps_state (hint _ start) hm
  rcases hfirst : Run.evalInt (p.runSite limits) start m with ⟨r, t⟩
  rw [hfirst] at ht hstart
  obtain rfl : r = .ok a := hstart
  obtain ⟨e, f, rfl⟩ := List.exists_cons_of_ne_nil hf
  obtain ⟨u, henter, hu⟩ := Run.enter_performs.retains ht (.empty :: e :: f) fun _ => rfl
  have hloop : Watched.forCount (p.runSite limits) counter start bound direction body (m, []) =
      Logged.andFinally (Watched.countRounds counter direction
        (Run.evalInt (p.runSite limits) bound) (Run.execBody (p.runSite limits) body)
        limits.rounds a) Run.exit (u, []) := by
    unfold Watched.forCount
    rw [Step.bind_ok (by rw [Logged.lift_apply, hfirst]),
      Step.bind_ok (by rw [Logged.lift_apply, henter])]
    rfl
  -- the rounds begin in the block that was opened, and leave it open, so it can be closed
  obtain ⟨events, hlog, hcounts⟩ := (Watched.countRounds_yields counter direction b a
    (fun F => hint F bound) (Run.execBody_nested hregular hcall hretain body) ⟨e :: f, hf, hu⟩
    limits.rounds []).result
  have hevents : p.loopLog limits counter start bound direction body m = events := by
    unfold loopLog
    rw [hloop, Logged.andFinally_log, hlog, List.nil_append]
  rw [hevents] at hsteady ⊢
  obtain ⟨hnested, hcounts⟩ := hcounts (List.all_eq_true.mpr hsteady)
  obtain ⟨v, w, hexit, -⟩ := Run.renew_renewed hnested
  rw [← congrArg Prod.fst (Watched.forCount_erases (p.runSite limits) counter start bound direction
    body sp m [])]
  show LoopEvent.Counted _ _ _ _ _ _ (Watched.forCount _ counter start bound _ body (m, [])).1
  rw [hloop, Logged.andFinally_result hexit]
  exact hcounts.counted

end Pigeon
