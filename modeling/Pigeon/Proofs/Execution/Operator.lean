import Pigeon.Execution.Arithmetic

/-!
# Operators on values of their types

An operator of the language either gives a value or fails at run time. On operands whose types the
rules accept it fails only where an integer is divided by zero, and its value has the type that the
rules say.
-/

namespace Pigeon

/-- The cause of the failure is a value of another type than the one that is needed. -/
def RuntimeCause.isMismatch : RuntimeCause → Bool
  | unexpectedType _ _ | unaryOperand _ _ | binaryOperands _ _ _ | nativeArgument _ _ _ => true
  | _ => false

/-- The code of a mismatch stands at the beginning of a text if it stands at the beginning of its
first part. -/
theorem RuntimeCause.code_prefix_iff {first : String} {rest : List Char}
    (hfirst : 10 ≤ first.toList.length) :
    "[RUN-0040]".toList <+: first.toList ++ rest ↔ "[RUN-0040]".toList <+: first.toList := by
  have hlen : "[RUN-0040]".toList.length = 10 := by decide +kernel
  constructor
  · intro h
    exact List.prefix_of_prefix_length_le h (List.prefix_append _ _) (by rw [hlen]; exact hfirst)
  · intro h
    exact h.trans (List.prefix_append _ _)

/-- The causes that are a mismatch are those with the code `RUN-0040`. -/
theorem RuntimeCause.isMismatch_iff (c : RuntimeCause) :
    c.isMismatch = true ↔ "[RUN-0040]".toList <+: c.message.toList := by
  unfold RuntimeCause.message
  cases c with
  | divisionByZero => decide +kernel
  | moduloByZero => decide +kernel
  | stackExhausted => decide +kernel
  | unreadable t line =>
      simp only [String.toList_append, List.append_assoc]
      show _ ↔ _ <+: "[RUN-0030] cannot read ".toList ++ _
      rw [code_prefix_iff (by decide +kernel)]
      exact iff_of_false Bool.false_ne_true (by decide +kernel)
  | unexpectedType t u =>
      simp only [String.toList_append, List.append_assoc]
      show _ ↔ _ <+: "[RUN-0040] expected a value of type '".toList ++ _
      rw [code_prefix_iff (by decide +kernel)]
      exact iff_of_true rfl (by decide +kernel)
  | unaryOperand op t =>
      simp only [String.toList_append, List.append_assoc]
      show _ ↔ _ <+: "[RUN-0040] operator '".toList ++ _
      rw [code_prefix_iff (by decide +kernel)]
      exact iff_of_true rfl (by decide +kernel)
  | binaryOperands op t u =>
      simp only [String.toList_append, List.append_assoc]
      show _ ↔ _ <+: "[RUN-0040] operator '".toList ++ _
      rw [code_prefix_iff (by decide +kernel)]
      exact iff_of_true rfl (by decide +kernel)
  | nativeArgument f t u =>
      simp only [String.toList_append, List.append_assoc]
      show _ ↔ _ <+: "[RUN-0040] native function '".toList ++ _
      rw [code_prefix_iff (by decide +kernel)]
      exact iff_of_true rfl (by decide +kernel)

/-! ## Unary operators -/

/-- An operator with a type gives a value or fails at run time. -/
theorem UnOp.apply_cases {op : UnOp} {t u : Ty} (h : op.result t = .ok (some u)) (v : Value)
    (sp : Option Span) :
    (∃ w, op.apply v sp = .ok w) ∨ ∃ cause, op.apply v sp = .error (.runtime cause sp) := by
  cases op with
  | other s => cases h
  | pos => cases v <;> simp [UnOp.apply]
  | neg => cases v <;> simp [UnOp.apply]
  | not => cases v <;> simp [UnOp.apply]

/-- On an operand of an accepted type there is a value of the type of the result. -/
theorem UnOp.apply_typed {op : UnOp} {u : Ty} {v : Value} (h : op.result v.ty = .ok (some u))
    (sp : Option Span) : ∃ w, op.apply v sp = .ok w ∧ w.ty = u := by
  cases op with
  | other s => cases h
  | pos => cases v <;> simp_all [UnOp.result, UnOp.apply, Value.ty, Ty.isNumeric]
  | neg => cases v <;> simp_all [UnOp.result, UnOp.apply, Value.ty, Ty.isNumeric]
  | not => cases v <;> simp_all [UnOp.result, UnOp.apply, Value.ty]

/-! ## Binary operators -/

/-- An operator other than division and remainder does not fail on integers. -/
theorem BinOp.applyInt_cases (op : BinOp) (a b : Int64) (sp : Option Span) :
    (∃ w, op.applyInt a b sp = .ok w) ∨
      ∃ cause, op.applyInt a b sp = .error (.runtime cause sp) ∧ cause.isMismatch = false := by
  cases op with
  | div =>
      unfold BinOp.applyInt
      by_cases hb : b = 0
      · exact .inr ⟨_, if_pos hb, rfl⟩
      · exact .inl ⟨_, if_neg hb⟩
  | mod =>
      unfold BinOp.applyInt
      by_cases hb : b = 0
      · exact .inr ⟨_, if_pos hb, rfl⟩
      · exact .inl ⟨_, if_neg hb⟩
  | _ => exact .inl ⟨_, rfl⟩

/-- An operator other than an equality either finds a result or that there is none, or fails at
run time. -/
theorem BinOp.applyTagged_cases (op : BinOp) (l r : Value) (sp : Option Span) :
    (∃ w, op.applyTagged l r sp = .ok w) ∨
      ∃ cause, op.applyTagged l r sp = .error (.runtime cause sp) ∧ cause.isMismatch = false := by
  unfold BinOp.applyTagged
  split
  · exact BinOp.applyInt_cases op _ _ sp
  · exact .inl ⟨_, rfl⟩
  · exact .inl ⟨_, rfl⟩
  · exact .inl ⟨_, rfl⟩
  · split
    · exact .inl ⟨_, rfl⟩
    · exact .inl ⟨_, rfl⟩
    · exact .inl ⟨_, rfl⟩
  · exact .inl ⟨_, rfl⟩

/-- An operator of the language gives a value or fails at run time. -/
theorem BinOp.apply_cases {op : BinOp} {t u w : Ty} (h : op.result t u = .ok (some w))
    (l r : Value) (sp : Option Span) :
    (∃ v, op.apply l r sp = .ok v) ∨ ∃ cause, op.apply l r sp = .error (.runtime cause sp) := by
  unfold BinOp.apply
  split
  · exact .inl ⟨_, rfl⟩
  · exact .inl ⟨_, rfl⟩
  · cases h
  · rcases BinOp.applyTagged_cases op l r sp with ⟨v, hv⟩ | ⟨cause, hcause, -⟩
    · rw [hv]
      cases v with
      | none => exact .inr ⟨_, rfl⟩
      | some v => exact .inl ⟨v, rfl⟩
    · rw [hcause]
      exact .inr ⟨cause, rfl⟩

/-- The result of integer arithmetic has the type of the result. -/
theorem BinOp.ty_of_applyInt {op : BinOp} {a b : Int64} {t : Ty} {found : Option Value}
    {sp : Option Span} (hop : op.isEquality = false) (h : op.result .int .int = .ok (some t))
    (hfound : op.applyInt a b sp = .ok found) : found.map Value.ty = some t := by
  cases op with
  | eq | ne => cases hop
  | div =>
      cases h
      simp only [BinOp.applyInt] at hfound
      split at hfound
      · cases hfound
      · cases hfound
        rfl
  | mod =>
      cases h
      simp only [BinOp.applyInt] at hfound
      split at hfound
      · cases hfound
      · cases hfound
        rfl
  | and | or | other => cases h
  | _ =>
      cases h
      cases hfound
      rfl

/-- The result of float arithmetic has the type of the result. -/
theorem BinOp.ty_applyFloat {op : BinOp} {u v t : Ty} (x y : Float) (hop : op.isEquality = false)
    (h : op.result u v = .ok (some t)) (hu : u.isNumeric = true) (hv : v.isNumeric = true)
    (hints : ¬ (u = .int ∧ v = .int)) : (op.applyFloat x y).map Value.ty = some t := by
  -- only the numbers are left, and not two integers
  cases u <;> cases hu <;> cases v <;> cases hv
  case int.refl.int.refl => exact absurd ⟨rfl, rfl⟩ hints
  all_goals
    cases op with
    | eq | ne => cases hop
    | mod | and | or | other => cases h
    | _ =>
        cases h
        rfl

/-- On operands that are not both numbers the only arithmetic is concatenation. -/
theorem BinOp.result_of_not_numeric {op : BinOp} {u v t : Ty} (hop : op.isEquality = false)
    (hlogical : op.isLogical = false) (h : op.result u v = .ok (some t))
    (hnumeric : ¬ (u.isNumeric = true ∧ v.isNumeric = true)) :
    op = .add ∧ u ≠ .void ∧ v ≠ .void ∧ t = .string := by
  have hints : ¬ (u = .int ∧ v = .int) := by
    rintro ⟨rfl, rfl⟩
    exact hnumeric ⟨rfl, rfl⟩
  cases op with
  | eq | ne => cases hop
  | and | or => cases hlogical
  | other => cases h
  | mod => simp [BinOp.result, hints] at h
  | lt | gt | le | ge => simp [BinOp.result, hnumeric] at h
  | sub | mul | div => simp [BinOp.result, BinOp.arithmeticResult, hints, hnumeric] at h
  | add =>
      simp only [BinOp.result, BinOp.arithmeticResult, Bool.or_eq_true, Bool.and_eq_true,
        decide_eq_true_eq, if_neg hints, if_neg hnumeric] at h
      split at h
      · cases h
      · next hvoid =>
          rw [not_or] at hvoid
          cases h
          exact ⟨rfl, hvoid.1, hvoid.2, rfl⟩

/-- A concatenation is a text. -/
theorem BinOp.ty_concat {op : BinOp} {l r : Value} {t : Ty} (hop : op.isEquality = false)
    (hlogical : op.isLogical = false) (h : op.result l.ty r.ty = .ok (some t))
    (hnumeric : ¬ (l.ty.isNumeric = true ∧ r.ty.isNumeric = true)) :
    (op.concat l r).map Value.ty = some t := by
  obtain ⟨rfl, hl, hr, rfl⟩ := BinOp.result_of_not_numeric hop hlogical h hnumeric
  have hconcat : BinOp.concat .add l r = some (.string (l.text ++ r.text)) := by
    simp [BinOp.concat, hl, hr]
  rw [hconcat]
  rfl

/-- What is found on operands of accepted types has the type of the result. -/
theorem BinOp.ty_of_applyTagged {op : BinOp} {l r : Value} {t : Ty} {found : Option Value}
    {sp : Option Span} (hop : op.isEquality = false) (h : op.result l.ty r.ty = .ok (some t))
    (hfound : op.applyTagged l r sp = .ok found) : found.map Value.ty = some t := by
  unfold BinOp.applyTagged at hfound
  split at hfound
  · exact BinOp.ty_of_applyInt hop h hfound
  · cases hfound
    exact BinOp.ty_applyFloat _ _ hop h rfl rfl (by simp [Value.ty])
  · cases hfound
    exact BinOp.ty_applyFloat _ _ hop h rfl rfl (by simp [Value.ty])
  · cases hfound
    exact BinOp.ty_applyFloat _ _ hop h rfl rfl (by simp [Value.ty])
  · split at hfound
    · cases hfound
      cases h
      rfl
    · cases hfound
      cases h
      rfl
    · next hand hor =>
        cases hfound
        refine BinOp.ty_concat hop ?_ h (by simp [Value.ty, Ty.isNumeric])
        cases op with
        | and => exact absurd rfl hand
        | or => exact absurd rfl hor
        | _ => rfl
  · next hii hif hfi hff hbb =>
      -- operands that are neither two numbers nor two truth values are joined, or not accepted
      cases hfound
      refine BinOp.ty_concat hop ?_ h ?_
      · cases op with
        | and | or => cases l <;> cases r <;> simp_all [BinOp.result, Value.ty]
        | _ => rfl
      · rintro ⟨hl, hr⟩
        cases l <;> cases r <;> simp_all [Value.ty, Ty.isNumeric]

/-- On operands of accepted types there is a value of the type of the result, unless an integer is
divided by zero. -/
theorem BinOp.apply_typed {op : BinOp} {l r : Value} {t : Ty}
    (h : op.result l.ty r.ty = .ok (some t)) (sp : Option Span) :
    (∃ v, op.apply l r sp = .ok v ∧ v.ty = t) ∨
      ∃ cause, op.apply l r sp = .error (.runtime cause sp) ∧ cause.isMismatch = false := by
  have hequality : op.isEquality = true → t = .bool := by
    intro hop
    cases op with
    | eq => simp_all [BinOp.result]
    | ne => simp_all [BinOp.result]
    | _ => cases hop
  unfold BinOp.apply
  split
  · exact .inl ⟨_, rfl, (hequality rfl).symm⟩
  · exact .inl ⟨_, rfl, (hequality rfl).symm⟩
  · cases h
  · next hne hnn _ =>
      have hop : op.isEquality = false := by
        cases op with
        | eq => exact absurd rfl hne
        | ne => exact absurd rfl hnn
        | _ => rfl
      rcases BinOp.applyTagged_cases op l r sp with ⟨found, hfound⟩ | ⟨cause, hcause, hmis⟩
      · obtain ⟨v, rfl, hv⟩ := Option.map_eq_some_iff.mp (BinOp.ty_of_applyTagged hop h hfound)
        rw [hfound]
        exact .inl ⟨v, rfl, hv⟩
      · rw [hcause]
        exact .inr ⟨cause, rfl, hmis⟩

end Pigeon
