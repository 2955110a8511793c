import Pigeon.Native.Callback
import Pigeon.Proofs.Execution.Expr
import Pigeon.Proofs.Native.Widened

/-!
# What native functions give is converted

A payload denotes at most one value of a type (`Payload.Denotes`), and fitting it to the type finds
that value. A call of a native function therefore ends with the value that the payload of its
callback denotes at the result type, or the function is blamed by name
(`Run.native_result_converted`). Integers can be *unwieldy*: one that is too large for a float, or
that does not fit and has too many digits for the message that would show it, ends the call with a
failure that blames nobody.
-/

namespace Pigeon

/-! ## What payloads denote -/

namespace Payload

/-- The value that a payload denotes at a type. A tagged value denotes itself, and bare data the
value of its kind. At `int` an integer denotes the word that is congruent to it, and at `float` the
float nearest to it, unless that is infinite. -/
inductive Denotes : Payload → Ty → Value → Prop
  | value (v : Value) : Denotes (.value v) v.ty v
  | none : Denotes .none .void .void
  | word {n : Int} {k : Int64} : k.toInt ≡ n [ZMOD 2 ^ 64] → Denotes (.int n) .int (.int k)
  | widened {n : Int} : n.natAbs < 2 ^ 1024 - 2 ^ 970 →
      Denotes (.int n) .float (.float (Float.ofInt n))
  | float (x : Float) : Denotes (.float x) .float (.float x)
  | bool (b : Bool) : Denotes (.bool b) .bool (.bool b)
  | string (s : String) : Denotes (.string s) .string (.string s)

/-- An integer that is too large for a float, or that does not fit and has too many digits to be
shown. -/
inductive Unwieldy : Payload → Ty → Prop
  | widened {n : Int} : 2 ^ 1024 - 2 ^ 970 ≤ n.natAbs → Unwieldy (.int n) .float
  | shown {n : Int} {t : Ty} : t ≠ .int → t ≠ .float → 10 ^ Numeral.maxDigits ≤ n.natAbs →
      Unwieldy (.int n) t

variable {p : Payload} {t : Ty} {v : Value}

/-- An integer is wrapped to the word that is congruent to it. -/
theorem ofInt_eq_iff {n : Int} {k : Int64} : Int64.ofInt n = k ↔ k.toInt ≡ n [ZMOD 2 ^ 64] := by
  constructor
  · rintro rfl
    rw [Int64.toInt_ofInt]
    exact Int.bmod_emod
  · intro h
    have hk : k.toInt.bmod (2 ^ 64) = n.bmod (2 ^ 64) := by
      rw [← Int.emod_bmod (x := k.toInt), ← Int.emod_bmod (x := n)]
      exact congrArg (Int.bmod · (2 ^ 64)) h
    rw [← Int64.toInt_inj, Int64.toInt_ofInt]
    exact hk.symm.trans (Int64.toInt_bmod k)

/-- What data denotes at a type has that type. -/
theorem Denotes.ty_eq (h : p.Denotes t v) : v.ty = t := by
  cases h <;> rfl

/-- Data that denotes a value can be handled. -/
theorem Denotes.not_unwieldy (h : p.Denotes t v) : ¬ p.Unwieldy t := by
  intro hu
  cases h with
  | word =>
      cases hu with
      | shown hint => exact hint rfl
  | widened hn =>
      cases hu with
      | widened hle => exact absurd hle (Nat.not_le.mpr hn)
      | shown _ hfloat => exact hfloat rfl
  | _ => cases hu

/-- At the type `float` an integer is widened, unless it is too large. -/
theorem toValue_int_float (n : Int) : toValue (.int n) .float =
    if 2 ^ 1024 - 2 ^ 970 ≤ n.natAbs then .error .overflow else .ok (.float (Float.ofInt n)) := by
  rw [toValue, widen?_eq]
  by_cases hn : 2 ^ 1024 - 2 ^ 970 ≤ n.natAbs
  · rw [if_pos hn, if_pos hn]
  · rw [if_neg hn, if_neg hn]

/-- A payload is fitted to a type if and only if it denotes a value of that type. -/
theorem toValue_eq_ok_iff : p.toValue t = .ok v ↔ p.Denotes t v := by
  constructor
  · intro h
    unfold toValue at h
    -- the branches are those of the conversion, in their order
    split at h
    · split at h
      · next hty =>
          cases h
          subst hty
          exact .value v
      · cases h
    · cases h
      exact .none
    · cases h
    · cases h
      exact .word (ofInt_eq_iff.mp rfl)
    · rw [widen?_eq] at h
      split at h
      · next heq =>
          cases h
          split at heq
          · cases heq
          · next hlt =>
              cases heq
              exact .widened (Nat.lt_of_not_le hlt)
      · cases h
    · cases h
      exact .float _
    · cases h
      exact .bool _
    · cases h
      exact .string _
    · cases h
  · intro h
    cases h with
    | value => exact if_pos rfl
    | none => rfl
    | word hk => exact congrArg (fun k => Except.ok (Value.int k)) (ofInt_eq_iff.mpr hk)
    | widened hn => rw [toValue_int_float, if_neg (Nat.not_le.mpr hn)]
    | float => rfl
    | bool => rfl
    | string => rfl

/-- Only integers are too large to handle. -/
theorem Unwieldy.exists_int (h : p.Unwieldy t) : ∃ n, p = .int n := by
  cases h <;> exact ⟨_, rfl⟩

/-- The failure to fit anything but an integer shows the data or the type of the tagged value. -/
theorem toValue_error_of_ne_int {e : ConversionError} (hp : ∀ n, p ≠ .int n)
    (h : p.toValue t = .error e) : e ≠ .overflow ∧ e ≠ .tooManyDigits := by
  cases p with
  | int n => exact absurd rfl (hp n)
  | value v =>
      rw [toValue] at h
      split at h
      · cases h
      · cases h
        exact ⟨nofun, nofun⟩
  | _ => cases t <;> cases h <;> exact ⟨nofun, nofun⟩

/-- An integer that does not fit is shown if it is small enough. -/
theorem misfit_int (n : Int) (f : String → ConversionError) :
    misfit (.int n) f =
      if 10 ^ Numeral.maxDigits ≤ n.natAbs then .tooManyDigits else f (shown (.int n)) := by
  have hdigits : Numeral.maxDigits < (Nat.toDigits 10 n.natAbs).length ↔
      10 ^ Numeral.maxDigits ≤ n.natAbs := by
    rw [← not_iff_not, Nat.not_lt, Nat.not_le]
    exact Nat.length_toDigits_le_iff (by decide) (by decide)
  rw [misfit]
  simp only [hdigits]

/-- The failure to fit an integer does not show it if and only if it is unwieldy. -/
theorem toValue_int_error {n : Int} {e : ConversionError} (h : toValue (.int n) t = .error e) :
    Unwieldy (.int n) t ↔ e = .overflow ∨ e = .tooManyDigits := by
  have hmisfit : ∀ f : String → ConversionError, (∀ s, f s ≠ .overflow ∧ f s ≠ .tooManyDigits) →
      t ≠ .int → t ≠ .float → misfit (.int n) f = e →
      (Unwieldy (.int n) t ↔ e = .overflow ∨ e = .tooManyDigits) := by
    rintro f hf hint hfloat rfl
    rw [misfit_int]
    split
    · next hn => exact ⟨fun _ => .inr rfl, fun _ => .shown hint hfloat hn⟩
    · next hn =>
        constructor
        · intro h
          cases h with
          | widened => exact absurd rfl hfloat
          | shown _ _ hlarge => exact absurd hlarge hn
        · rintro (h | h)
          · exact absurd h (hf _).1
          · exact absurd h (hf _).2
  cases t with
  | int => cases h
  | float =>
      rw [toValue_int_float] at h
      split at h
      · next hn =>
          cases h
          exact ⟨fun _ => .inl rfl, fun _ => .widened hn⟩
      · cases h
  | void => exact hmisfit .voidWithData (fun _ => ⟨nofun, nofun⟩) nofun nofun (Except.error.inj h)
  | bool | string | any =>
    exact hmisfit (.unfit · _) (fun _ => ⟨nofun, nofun⟩) nofun nofun (Except.error.inj h)

/-- Data denotes one value at most. -/
theorem Denotes.unique {w : Value} (h : p.Denotes t v) (h' : p.Denotes t w) : v = w :=
  Except.ok.inj ((toValue_eq_ok_iff.mpr h).symm.trans (toValue_eq_ok_iff.mpr h'))

/-- The failure to fit a payload says nothing about it if and only if the payload is unwieldy. -/
theorem unwieldy_iff {e : ConversionError} (h : p.toValue t = .error e) :
    p.Unwieldy t ↔ e = .overflow ∨ e = .tooManyDigits := by
  by_cases hp : ∃ n, p = .int n
  · obtain ⟨n, rfl⟩ := hp
    exact toValue_int_error h
  · have hne := toValue_error_of_ne_int (fun n hn => hp ⟨n, hn⟩) h
    exact ⟨fun hu => absurd hu.exists_int hp, fun he => absurd he (not_or.mpr hne)⟩

end Payload

/-! ## Calls of native functions -/

/-- How a call of a native function ends that gave the payload: with the value that the payload
denotes at the result type, or with a failure that names the function if it denotes none. -/
inductive NativeFunction.Converts (f : NativeFunction) (p : Payload) : Except Failure Value → Prop
  | value {v : Value} : p.Denotes f.returns v → v.ty = f.returns → Converts f p (.ok v)
  | refused {e : ConversionError} : (∀ v, ¬ p.Denotes f.returns v) →
      Converts f p (.error (.usage (.badResult f.name e)))

namespace Run

variable {site : RunSite} {f : NativeFunction} {args : List Expr} {s : Option Span}
  {m m' : Machine} {vs : List Value} {p : Payload} {host : Host}

/-- Arguments that the parameters accept pass the check, as far as both go. -/
theorem checkNativeArguments_ok (name : String) {ps : List Parameter} {vs : List Value}
    (h : ∀ x ∈ ps.zip vs, x.1.ty.accepts x.2.ty = true) (spans : List (Option Span))
    (m : Machine) : checkNativeArguments name ps vs spans m = (.ok (), m) := by
  induction ps generalizing vs spans with
  | nil => rfl
  | cons q ps ih =>
      cases vs with
      | nil => rfl
      | cons v vs =>
          cases spans with
          | nil => rfl
          | cons span spans =>
              rw [List.zip_cons_cons, List.forall_mem_cons] at h
              rw [checkNativeArguments, if_pos h.1]
              exact ih h.2 spans

/-- What a native function gives becomes the value that it denotes. If it denotes none, the function
is blamed for it, unless it is an unwieldy integer. -/
theorem nativeResult_cases (g : Function) (p : Payload) (m : Machine) :
    (∃ v, p.Denotes g.returns v ∧ nativeResult g p m = (.ok v, m)) ∨
    ((∀ v, ¬ p.Denotes g.returns v) ∧ ∃ e,
      (¬ p.Unwieldy g.returns ∧ nativeResult g p m = (.error (.usage (.badResult g.name e)), m)) ∨
      (p.Unwieldy g.returns ∧ (e = .overflow ∨ e = .tooManyDigits) ∧
        nativeResult g p m = (.error (.conversion e), m))) := by
  unfold nativeResult
  cases h : p.toValue g.returns with
  | ok v => exact .inl ⟨v, Payload.toValue_eq_ok_iff.mp h, rfl⟩
  | error e =>
      refine .inr ⟨fun v hv => ?_, e, ?_⟩
      · rw [Payload.toValue_eq_ok_iff.mpr hv] at h
        cases h
      · rw [Payload.unwieldy_iff h]
        cases e with
        | overflow => exact .inr ⟨.inl rfl, .inl rfl, rfl⟩
        | tooManyDigits => exact .inr ⟨.inr rfl, .inr rfl, rfl⟩
        | _ => exact .inl ⟨by simp, rfl⟩

/-- A call of a native function whose arguments are accepted fits what its callback gives. -/
theorem eval_native (hglobal : m.arena.global? m.globals f.name = .ok (some f.symbol))
    (hargs : evalAll site args m = (.ok vs, m'))
    (haccepts : ∀ x ∈ f.params.zip vs, x.1.accepts x.2.ty = true)
    (hcall : f.callback vs m'.host = (.ok p, host)) :
    eval site (.call f.name args s) m =
      nativeResult ⟨f.name, f.returns, f.parameters, .native f.callback⟩ p
        { m' with host := host } := by
  have hfunction : function site f.name s m =
      (.ok ⟨f.name, f.returns, f.parameters, .native f.callback⟩, m) := by
    unfold function Arena.globalFunction?
    rw [Step.bind_ok (Step.get_apply m), hglobal]
    rfl
  have hparams : ∀ x ∈ f.parameters.zip vs, x.1.ty.accepts x.2.ty = true := by
    intro x hx
    refine haccepts (x.1.ty, x.2) ?_
    rw [← NativeFunction.map_ty_parameters f, List.zip_map_left]
    exact List.mem_map_of_mem hx
  have hcallback : callback f.callback vs m' = (.ok p, { m' with host := host }) := by
    rw [callback_apply, hcall]
  rw [eval, Step.bind_ok hfunction, Step.bind_ok hargs]
  show callNative _ f.callback vs (args.map Expr.span) m' = _
  rw [callNative, Step.bind_ok (checkNativeArguments_ok _ hparams _ _), Step.bind_ok hcallback]

/-- A call of a native function whose arguments are accepted ends with the value that the payload of
its callback denotes at the result type, or with a failure that names the function if it denotes
none. Only if the payload is an unwieldy integer another failure ends the call. -/
theorem native_result_converted
    (hglobal : m.arena.global? m.globals f.name = .ok (some f.symbol))
    (hargs : evalAll site args m = (.ok vs, m'))
    (haccepts : ∀ x ∈ f.params.zip vs, x.1.accepts x.2.ty = true)
    (hcall : f.callback vs m'.host = (.ok p, host)) :
    ∃ r, eval site (.call f.name args s) m = (r, { m' with host := host }) ∧
      (¬ p.Unwieldy f.returns → f.Converts p r) ∧
      (p.Unwieldy f.returns →
        r = .error (.conversion .overflow) ∨ r = .error (.conversion .tooManyDigits)) := by
  rw [eval_native hglobal hargs haccepts hcall]
  obtain ⟨v, hv, heq⟩ | ⟨hnone, e, ⟨hu, heq⟩ | ⟨hu, he, heq⟩⟩ :=
    nativeResult_cases ⟨f.name, f.returns, f.parameters, .native f.callback⟩ p
      { m' with host := host }
  · exact ⟨.ok v, heq, fun _ => .value hv hv.ty_eq, fun hu => absurd hu hv.not_unwieldy⟩
  · exact ⟨_, heq, fun _ => .refused hnone, fun h => absurd h hu⟩
  · refine ⟨_, heq, fun h => absurd hu h, fun _ => ?_⟩
    rcases he with rfl | rfl
    · exact .inl rfl
    · exact .inr rfl

/-- A machine that knows a native function and nothing else. -/
def knowing (f : NativeFunction) : Machine where
  arena := ⟨#[some ⟨none, [(f.name, f.symbol)]⟩], []⟩
  globals := 0
  frames := []
  host := {}

/-- The machine that knows a native function finds it. -/
theorem knowing_global? (f : NativeFunction) :
    (knowing f).arena.global? (knowing f).globals f.name = .ok (some f.symbol) := by
  show Except.ok (Symbols.find? [(f.name, f.symbol)] f.name) = _
  simp [Symbols.find?]

/-- A place without declared functions. -/
def bare : RunSite where
  filename := none
  rounds := 0
  call := fun _ _ _ _ => throw .unfinished

/-- A call with a truth value. -/
def flagged (f : NativeFunction) : Expr := .call f.name [.bool true none] none

theorem evalAll_flagged (f : NativeFunction) :
    evalAll bare [.bool true none] (knowing f) = (.ok [.bool true], knowing f) := rfl

/-- A function whose result is too large for a word. -/
def wide : NativeFunction := ⟨.int, "wide", Callback.constant (.int (2 ^ 64 + 5)), [.any]⟩

/-- A function whose result is not of its result type. -/
def odd : NativeFunction := ⟨.int, "odd", Callback.constant (.bool true), [.any]⟩

/-- A function whose result is too large for a float. -/
def huge : NativeFunction := ⟨.float, "huge", Callback.constant (.int (10 ^ 400)), [.any]⟩

/-- An integer that is too large for a word is wrapped, and a truth value is no integer. -/
theorem native_result_converted_fixed :
    eval bare (flagged wide) (knowing wide) = (.ok (.int 5), knowing wide) ∧
    ∃ e, eval bare (flagged odd) (knowing odd) =
      (.error (.usage (.badResult "odd" e)), knowing odd) := by
  constructor
  · obtain ⟨r, heq, hconverts, -⟩ := native_result_converted (s := none)
      (knowing_global? wide) (evalAll_flagged wide) (by decide) rfl
    have hdenotes : Payload.Denotes (.int (2 ^ 64 + 5)) .int (.int 5) := .word (by decide)
    refine heq.trans ?_
    cases hconverts hdenotes.not_unwieldy with
    | value hv => rw [hv.unique hdenotes]
    | refused hnone => exact absurd hdenotes (hnone _)
  · obtain ⟨r, heq, hconverts, -⟩ := native_result_converted (s := none)
      (knowing_global? odd) (evalAll_flagged odd) (by decide) rfl
    rw [flagged]
    rw [heq]
    cases hconverts nofun with
    | value hv => cases hv
    | @refused e hnone => exact ⟨e, rfl⟩

/-- Not every result is converted or refused: an integer too large for a float is neither. -/
theorem native_result_converted_fails :
    ¬ ∀ (site : RunSite) (f : NativeFunction) (args : List Expr) (s : Option Span)
      (m m' : Machine) (vs : List Value) (p : Payload) (host : Host), f.Fits →
      m.arena.global? m.globals f.name = .ok (some f.symbol) →
      evalAll site args m = (.ok vs, m') → (∀ x ∈ f.params.zip vs, x.1.accepts x.2.ty = true) →
      f.callback vs m'.host = (.ok p, host) →
      ∃ r, eval site (.call f.name args s) m = (r, { m' with host := host }) ∧
        f.Converts p r := by
  intro h
  obtain ⟨r, heq, hconverts⟩ := h bare huge _ none _ _ _ _ _ ⟨nofun, by decide⟩
    (knowing_global? huge) (evalAll_flagged huge) (by decide) rfl
  have hlarge : Payload.Unwieldy (.int (10 ^ 400)) .float := .widened (by decide +kernel)
  have hresult := eval_native (s := none) (knowing_global? huge) (evalAll_flagged huge)
    (by decide) rfl
  obtain ⟨v, hv, -⟩ | ⟨-, e, ⟨hu, -⟩ | ⟨-, -, hescaped⟩⟩ :=
    nativeResult_cases ⟨huge.name, huge.returns, huge.parameters, .native huge.callback⟩
      (.int (10 ^ 400)) (knowing huge)
  · exact hv.not_unwieldy hlarge
  · exact hu hlarge
  · have hr : (Except.error (.conversion e), knowing huge) = (r, knowing huge) :=
      hescaped.symm.trans (hresult.symm.trans heq)
    cases hr
    cases hconverts

end Run

end Pigeon
