import Mathlib.Data.Int.ModEq
import Mathlib.Tactic.NormNum
import Pigeon.Proofs.Execution.Confined
import Pigeon.Proofs.Execution.Trace

/-!
# Integers wrap around

The integers of the language have 64 bits. `Expr.unbounded?` is the value that an expression of
sums, differences, products and signs would have if integers had no end. The machine wraps the
result of every operator, and that comes to the same as to wrap the exact value once: wrapping
respects the operators, since it is reduction modulo `2 ^ 64`.

A quotient is truncated towards zero and can wrap as well, for the least integer and `-1`. Even
then quotient and remainder restore the dividend.

That no integer of a run has more than 64 bits is a matter of types: a value is made of a word, and
a native function that gives a larger integer has it wrapped by `Payload.toValue`.
-/

namespace Pigeon

/-! ## Integers without end -/

/-- A sign as an operation on integers without end. -/
def UnOp.unbounded? : UnOp → Option (Int → Int)
  | .pos => some id
  | .neg => some (-·)
  | _ => none

/-- A sum, a difference or a product as an operation on integers without end. -/
def BinOp.unbounded? : BinOp → Option (Int → Int → Int)
  | .add => some (· + ·)
  | .sub => some (· - ·)
  | .mul => some (· * ·)
  | _ => none

/-- The value of an expression over integers without end, where `read` gives those of the variables.
There is none if the expression is not made of integers, variables, signs, sums, differences and
products, or if a variable has no integer. -/
def Expr.unbounded? (read : String → Option Int) : Expr → Option Int
  | .int n _ => some n
  | .var name _ => read name
  | .paren e _ => e.unbounded? read
  | .unary op e _ => do return (← op.unbounded?) (← e.unbounded? read)
  | .binary op l r _ => do return (← op.unbounded?) (← l.unbounded? read) (← r.unbounded? read)
  | _ => none

/-- The integer that a variable has at the place where the machine stands. -/
def Machine.integer? (m : Machine) (name : String) : Option Int :=
  match (Run.lookup name m).1 with
  | .ok (.int n) => some n.toInt
  | _ => none

/-- The integer that a value shows, if it shows one, has 64 bits. -/
def Value.InRange (v : Value) : Prop := ∀ n, v.payload = .int n → -2 ^ 63 ≤ n ∧ n < 2 ^ 63

/-- The integers at an event have 64 bits: that of the expression or of the `return` that has been
evaluated, and those of the variables of all scopes. -/
structure Event.InRange (ev : Event) : Prop where
  evaluated : ∀ e v, ev.moment = .value e v → v.InRange
  returned : ∀ s v, ev.moment = .finish s (.ret v) → v.InRange
  stored : ev.machine.All fun x => ∀ u v, x.2 = .var u → u.value = some v → v.InRange

/-! ## Wrapping -/

/-- Of the integers that are congruent to a given one modulo `2 ^ 64`, the one that it is wrapped to
is the only one with 64 bits. -/
theorem eq_toInt_ofInt_iff (z k : Int) :
    k = (Int64.ofInt z).toInt ↔ -2 ^ 63 ≤ k ∧ k < 2 ^ 63 ∧ k ≡ z [ZMOD 2 ^ 64] := by
  have hsize : (Int64.size : Int) = 2 ^ 64 := rfl
  rw [Int64.toInt_ofInt, eq_comm, Int.bmod_eq_iff (by decide), hsize, Int.modEq_comm,
    Int.modEq_iff_dvd]
  norm_num

/-- Division of integers of 64 bits rounds towards zero, and wraps in the one case where the
quotient is too large. -/
theorem div_eq_ofInt_tdiv (a b : Int64) : a / b = Int64.ofInt (a.toInt.tdiv b.toInt) := by
  rw [← Int64.toInt_inj, Int64.toInt_div, Int64.toInt_ofInt]

/-- Quotient and remainder restore the dividend, also where the quotient wraps. -/
theorem div_mul_add_mod (a b : Int64) : a / b * b + a % b = a := by
  have hmod : a % b = Int64.ofInt (a.toInt.tmod b.toInt) := by
    rw [← Int64.toInt_mod, Int64.ofInt_toInt]
  calc a / b * b + a % b
      = Int64.ofInt (a.toInt.tdiv b.toInt * b.toInt + a.toInt.tmod b.toInt) := by
        rw [Int64.ofInt_add, Int64.ofInt_mul, Int64.ofInt_toInt, div_eq_ofInt_tdiv, hmod]
    _ = Int64.ofInt a.toInt := by rw [Int.add_comm, Int.tmod_add_tdiv_mul]
    _ = a := Int64.ofInt_toInt a

/-- The remainder is smaller than the divisor. -/
theorem abs_toInt_mod_lt (a : Int64) {b : Int64} (hb : b ≠ 0) :
    |(a % b).toInt| < |b.toInt| := by
  have hpos : 0 < b.toInt.natAbs := Int.natAbs_pos.mpr fun h => hb (Int64.toInt_inj.mp h)
  rw [Int64.toInt_mod, Int.abs_eq_natAbs, Int.abs_eq_natAbs, Int.natAbs_tmod]
  exact_mod_cast Nat.mod_lt _ hpos

/-- The remainder is zero or has the sign of the dividend. -/
theorem sign_toInt_mod (a b : Int64) :
    (a % b).toInt = 0 ∨ (a % b).toInt.sign = a.toInt.sign := by
  rw [Int64.toInt_mod]
  by_cases hdvd : b.toInt ∣ a.toInt
  · exact .inl (Int.tmod_eq_zero_of_dvd hdvd)
  · exact .inr (by rw [Int.sign_tmod, if_neg hdvd])

/-- Every integer that a value holds has 64 bits. -/
theorem Value.inRange : ∀ v : Value, v.InRange
  | .int n, _, h => by
      cases h
      exact ⟨n.le_toInt, n.toInt_lt⟩
  | .float _, _, h | .bool _, _, h | .string _, _, h | .void, _, h => nomatch h

/-- So has every integer that an event shows. -/
theorem Event.inRange (ev : Event) : ev.InRange where
  evaluated _ v _ := v.inRange
  returned _ v _ := v.inRange
  stored _ _ _ _ _ _ v _ _ := v.inRange

/-- A sign respects wrapping. -/
theorem UnOp.apply_ofInt {op : UnOp} {f : Int → Int} (h : op.unbounded? = some f) (x : Int)
    (sp : Option Span) : op.apply (.ofInt x) sp = .ok (.ofInt (f x)) := by
  cases op with
  | pos =>
      cases h
      rfl
  | neg =>
      cases h
      exact congrArg (fun n => Except.ok (Value.int n)) (Int64.ofInt_neg x).symm
  | _ => cases h

/-- A sum, a difference and a product respect wrapping. -/
theorem BinOp.apply_ofInt {op : BinOp} {f : Int → Int → Int} (h : op.unbounded? = some f)
    (x y : Int) (sp : Option Span) :
    op.apply (.ofInt x) (.ofInt y) sp = .ok (.ofInt (f x y)) := by
  cases op with
  | add =>
      cases h
      exact congrArg (fun n => Except.ok (Value.int n)) (Int64.ofInt_add x y).symm
  | sub =>
      cases h
      exact congrArg (fun n => Except.ok (Value.int n)) (Int64.ofInt_sub x y).symm
  | mul =>
      cases h
      exact congrArg (fun n => Except.ok (Value.int n)) (Int64.ofInt_mul x y).symm
  | _ => cases h

namespace Run

variable {site : RunSite} {m : Machine} {l r : Expr} {v w : Value} {a b : Int64}

/-! ## Evaluating expressions that change nothing -/

/-- A unary operation whose operand is evaluated is its operator applied to the value. -/
theorem eval_unary {op : UnOp} {e : Expr} (he : eval site e m = (.ok v, m)) (sp : Option Span) :
    eval site (.unary op e sp) m = (op.apply v sp, m) := by
  rw [eval, Step.bind_ok he, ofExcept_apply]

/-- A binary operation whose operands are evaluated is its operator applied to the values. -/
theorem eval_binary {op : BinOp} (hl : eval site l m = (.ok v, m)) (hr : eval site r m = (.ok w, m))
    (sp : Option Span) : eval site (.binary op l r sp) m = (op.apply v w sp, m) := by
  rw [eval, Step.bind_ok hl, Step.bind_ok hr, ofExcept_apply]

/-- A name that has an integer is looked up as that integer. -/
theorem lookup_of_integer? {name : String} {z : Int} (h : m.integer? name = some z) :
    lookup name m = (.ok (.ofInt z), m) := by
  unfold Machine.integer? at h
  split at h
  · next n hn =>
      cases h
      rw [Value.ofInt, Int64.ofInt_toInt]
      exact Prod.ext hn (lookup_snd name m)
  · cases h

/-- An expression has its exact value, wrapped once, although the machine wraps at every operator:
all operators respect wrapping. -/
theorem eval_exact : ∀ {e : Expr} {z : Int}, e.unbounded? m.integer? = some z →
    eval site e m = (.ok (.ofInt z), m)
  | .int n _, z, h => by
      cases h
      rw [eval]
      rfl
  | .var name _, z, h => by
      rw [eval]
      exact lookup_of_integer? h
  | .paren e _, z, h => by
      rw [eval]
      exact eval_exact (e := e) h
  | .unary op e sp, z, h => by
      obtain ⟨f, hf, h⟩ := Option.bind_eq_some_iff.mp h
      obtain ⟨x, hx, h⟩ := Option.bind_eq_some_iff.mp h
      cases h
      rw [eval_unary (eval_exact hx), UnOp.apply_ofInt hf]
  | .binary op l r sp, z, h => by
      obtain ⟨f, hf, h⟩ := Option.bind_eq_some_iff.mp h
      obtain ⟨x, hx, h⟩ := Option.bind_eq_some_iff.mp h
      obtain ⟨y, hy, h⟩ := Option.bind_eq_some_iff.mp h
      cases h
      rw [eval_binary (eval_exact hx) (eval_exact hy), BinOp.apply_ofInt hf]
  | .float .., _, h | .string .., _, h | .bool .., _, h | .ternary .., _, h | .call .., _, h
  | .other .., _, h => nomatch h

/-! ## Quotients and remainders -/

/-- What `/` and `%` give on expressions `l` and `r` with the values `a` and `b`, wherever the
operators stand in the source. -/
structure Divides (site : RunSite) (m : Machine) (l r : Expr) (a b : Int64) : Prop where
  /-- Zero divides nothing. -/
  zero : b = 0 → ∀ op ∈ [BinOp.div, .mod], ∀ sp, ∃ cause : RuntimeCause,
    eval site (.binary op l r sp) m = (.error (.runtime cause sp), m) ∧
      "[RUN-0010]".toList <+: cause.message.toList
  /-- The quotient is truncated towards zero, and then wrapped. -/
  quotient : b ≠ 0 → ∀ sp,
    eval site (.binary .div l r sp) m = (.ok (.ofInt (a.toInt.tdiv b.toInt)), m)
  remainder : b ≠ 0 → ∀ sp, ∃ c : Int64, eval site (.binary .mod l r sp) m = (.ok (.int c), m) ∧
    |c.toInt| < |b.toInt| ∧ (c.toInt = 0 ∨ c.toInt.sign = a.toInt.sign)
  /-- Quotient and remainder restore the dividend. -/
  restore : b ≠ 0 → ∀ sp₁ sp₂ sp₃ sp₄ sp₅,
    eval site (.binary .add (.binary .mul (.paren (.binary .div l r sp₁) sp₂) r sp₃)
      (.binary .mod l r sp₄) sp₅) m = (.ok (.int a), m)

/-- Operands that are evaluated are divided as their values are. -/
theorem divides (hl : eval site l m = (.ok (.int a), m)) (hr : eval site r m = (.ok (.int b), m)) :
    Divides site m l r a b := by
  have hdiv (hb : b ≠ 0) (sp : Option Span) :
      eval site (.binary .div l r sp) m = (.ok (.int (a / b)), m) := by
    rw [eval_binary hl hr]
    simp only [BinOp.apply, BinOp.applyTagged, BinOp.applyInt, if_neg hb]
  have hmod (hb : b ≠ 0) (sp : Option Span) :
      eval site (.binary .mod l r sp) m = (.ok (.int (a % b)), m) := by
    rw [eval_binary hl hr]
    simp only [BinOp.apply, BinOp.applyTagged, BinOp.applyInt, if_neg hb]
  refine ⟨?_, ?_, ?_, ?_⟩
  · rintro rfl op hop sp
    rw [eval_binary hl hr]
    simp only [List.mem_cons, List.not_mem_nil, or_false] at hop
    rcases hop with rfl | rfl
    · exact ⟨.divisionByZero, rfl, by decide +kernel⟩
    · exact ⟨.moduloByZero, rfl, by decide +kernel⟩
  · intro hb sp
    rw [hdiv hb, div_eq_ofInt_tdiv]
    rfl
  · intro hb sp
    exact ⟨a % b, hmod hb sp, abs_toInt_mod_lt a hb, sign_toInt_mod a b⟩
  · intro hb sp₁ sp₂ sp₃ sp₄ sp₅
    have hparen : eval site (.paren (.binary .div l r sp₁) sp₂) m = (.ok (.int (a / b)), m) := by
      rw [eval]
      exact hdiv hb sp₁
    have hmul : eval site (.binary .mul (.paren (.binary .div l r sp₁) sp₂) r sp₃) m =
        (.ok (.int (a / b * b)), m) := eval_binary hparen hr sp₃
    rw [eval_binary hmul (hmod hb sp₄)]
    show (Except.ok (Value.int (a / b * b + a % b)), m) = _
    rw [div_mul_add_mod]

/-- Integer arithmetic is exact modulo `2 ^ 64`. An expression of integers, signs, sums, differences
and products has the only value of 64 bits that is congruent to its exact value; quotients and
remainders restore the dividend; and all integers of all runs have 64 bits. -/
theorem arithmetic_exact (site : RunSite) (m : Machine) :
    (∀ e z, Expr.unbounded? m.integer? e = some z → ∃ n, eval site e m = (.ok (.int n), m) ∧
      ∀ k, k = n.toInt ↔ -2 ^ 63 ≤ k ∧ k < 2 ^ 63 ∧ k ≡ z [ZMOD 2 ^ 64]) ∧
    (∀ l r a b, eval site l m = (.ok (.int a), m) → eval site r m = (.ok (.int b), m) →
      Divides site m l r a b) ∧
    ∀ (p : Program) limits g a host, ∀ ev ∈ p.trace limits g a host, ev.InRange := by
  refine ⟨?_, ?_, ?_⟩
  · intro e z hz
    exact ⟨Int64.ofInt z, eval_exact hz, eq_toInt_ofInt_iff z⟩
  · intro l r a b hl hr
    exact divides hl hr
  · intro p limits g a host ev _
    exact ev.inRange

/-- A machine whose only variable has the least integer. -/
def leastMachine : Machine where
  arena := { slots := #[some ⟨none, []⟩, some ⟨some 0, [("x",
    .var { name := "x", ty := some .int, value := some (.int Int64.minValue) })]⟩] }
  globals := 0
  frames := [⟨0, [1]⟩]
  host := {}

/-- Its product with three less one is wrapped once although it is out of range twice, and it can be
divided by `-1`. -/
theorem arithmetic_exact_least :
    let site : RunSite :=
      { filename := none, rounds := 0, call := fun _ _ _ _ => throw .unfinished }
    let x := Expr.var "x" none
    let e := Expr.binary .sub (.binary .mul (.paren x none) (.int 3 none) none) (.int 1 none) none
    (∃ n, eval site e leastMachine = (.ok (.int n), leastMachine) ∧ n.toInt = 2 ^ 63 - 1) ∧
      Divides site leastMachine x (.unary .neg (.int 1 none) none) Int64.minValue (-1) := by
  intro site
  obtain ⟨hexact, hdivides, -⟩ := arithmetic_exact site leastMachine
  have hx : leastMachine.integer? "x" = some (-2 ^ 63) := by decide +kernel
  refine ⟨?_, ?_⟩
  · obtain ⟨n, hn, hrange⟩ := hexact (.binary .sub (.binary .mul (.paren (.var "x" none) none)
      (.int 3 none) none) (.int 1 none) none) (-2 ^ 63 * 3 - 1) (by
        simp only [Expr.unbounded?, hx, BinOp.unbounded?, Option.pure_def, Option.bind_eq_bind,
          Option.bind_some])
    exact ⟨n, hn, ((hrange (2 ^ 63 - 1)).mpr (by decide)).symm⟩
  · refine hdivides _ _ _ _ ?_ ?_
    · rw [eval, lookup_of_integer? hx]
      rfl
    · rw [eval_unary (v := .int 1) (m := leastMachine) rfl]
      rfl

end Run

end Pigeon
