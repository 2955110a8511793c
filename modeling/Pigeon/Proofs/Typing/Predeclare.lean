import Pigeon.Proofs.Native.Registered
import Pigeon.Proofs.Typing.Standing

/-!
# Declaring the functions of a program

The declaration of functions reports nothing if and only if the names of the functions are new and
distinct, and the parameters of each function are distinct and not void. Then the global scope holds
the natives and after them the functions, and means what `Program.globals` says.
-/

namespace Pigeon

/-- The parameters of a function are distinct, and none of them is void. -/
def Function.ParamsInOrder (f : Function) : Prop :=
  (f.params.map (·.name)).Nodup ∧ ∀ q ∈ f.params, q.ty ≠ .void

/-! ## Parameters -/

/-- The types of parameters are known if that of each one is. -/
theorem Param.parameters_cons {p : Param} {ps : List Param} {qs : List Parameter}
    (h : Param.parameters (p :: ps) = .ok qs) :
    ∃ t qs', Ty.ofName p.typeName = .ok t ∧ Param.parameters ps = .ok qs' ∧
      qs = ⟨p.name, t⟩ :: qs' := by
  unfold Param.parameters at h ⊢
  rw [List.mapM_cons] at h
  cases ht : Ty.ofName p.typeName with
  | error e => simp [ht, bind, Except.bind] at h
  | ok t =>
      simp only [ht, bind, Except.bind, pure, Except.pure] at h
      split at h
      · cases h
      · next qs' hqs =>
          cases h
          exact ⟨t, qs', rfl, hqs, rfl⟩

/-- What is reported about parameters whose types are known. -/
theorem FuncDecl.paramIssues_eq_nil_iff (filename : Option String) (function : String)
    {params : List Param} {qs : List Parameter} (h : Param.parameters params = .ok qs)
    (seen : List String) :
    (FuncDecl.paramIssues filename function seen params).1 = .ok () ∧
      ((FuncDecl.paramIssues filename function seen params).2 = [] ↔
        (∀ q ∈ qs, q.name ∉ seen) ∧ (qs.map (·.name)).Nodup ∧ ∀ q ∈ qs, q.ty ≠ .void) := by
  induction params generalizing qs seen with
  | nil =>
      cases h
      simp [FuncDecl.paramIssues]
  | cons p ps ih =>
      obtain ⟨t, qs', ht, hqs, rfl⟩ := Param.parameters_cons h
      obtain ⟨hok, hnil⟩ := ih hqs (p.name :: seen)
      rw [FuncDecl.paramIssues, ht]
      refine ⟨hok, ?_⟩
      have hduplicate : (if seen.contains p.name = true then
          [(Issue.duplicateParam p.name function).diagnostic filename p.span] else []) = [] ↔
            p.name ∉ seen := by
        by_cases hmem : p.name ∈ seen <;> simp [hmem]
      have hvoid : (if t = .void then
          [(Issue.voidParam p.name function).diagnostic filename p.span] else []) = [] ↔
            t ≠ .void := by
        by_cases hvoid : t = .void <;> simp [hvoid]
      -- the walk over `qs'` has seen `p` too, which is what keeps the names distinct
      have hseen : (∀ q ∈ qs', q.name ∉ p.name :: seen) ↔
          p.name ∉ qs'.map (·.name) ∧ ∀ q ∈ qs', q.name ∉ seen := by
        simp only [List.mem_cons, not_or, List.mem_map, not_exists, not_and]
        exact ⟨fun h => ⟨fun q hq => (h q hq).1, fun q hq => (h q hq).2⟩,
          fun h q hq => ⟨h.1 q hq, h.2 q hq⟩⟩
      rw [List.append_eq_nil_iff, List.append_eq_nil_iff, hduplicate, hvoid, hnil, hseen,
        List.forall_mem_cons, List.forall_mem_cons, List.map_cons, List.nodup_cons]
      constructor
      · rintro ⟨⟨hp, ht⟩, ⟨hfirst, hnew⟩, hnodup, hall⟩
        exact ⟨⟨hp, hnew⟩, ⟨hfirst, hnodup⟩, ht, hall⟩
      · rintro ⟨⟨hp, hnew⟩, ⟨hfirst, hnodup⟩, ht, hall⟩
        exact ⟨⟨hp, ht⟩, ⟨hfirst, hnew⟩, hnodup, hall⟩

/-- The function of a declaration. -/
theorem FuncDecl.toFunction_ok {d : FuncDecl} {f : Function} (h : d.toFunction = .ok f) :
    f.name = d.name ∧ Param.parameters d.params = .ok f.params ∧ f.body = .declared d.body := by
  unfold FuncDecl.toFunction at h
  cases hparams : Param.parameters d.params with
  | error e => simp [hparams, bind, Except.bind] at h
  | ok params =>
      cases hreturns : Ty.ofName d.returnType with
      | error e => simp [hparams, hreturns, bind, Except.bind] at h
      | ok returns =>
          simp only [hparams, hreturns, bind, Except.bind, pure, Except.pure] at h
          cases h
          exact ⟨rfl, rfl, rfl⟩

/-! ## Functions -/

section Predeclare

variable {a : Arena} {g : Handle} {G : Symbols} {F : List Blocks} {d : FuncDecl} {f : Function}

/-- A function whose name is new and whose parameters are in order is declared. -/
theorem FuncDecl.predeclare_ok (filename : Option String) (H : a.Holds g G F)
    (h : d.toFunction = .ok f) (hparams : f.ParamsInOrder)
    (hnew : Symbols.find? G d.name = none) :
    ∃ a', d.predeclare filename g a = ⟨.ok (), [], a'⟩ ∧
      a'.Holds g (G ++ [(f.name, .func f)]) F := by
  obtain ⟨hname, hps, -⟩ := FuncDecl.toFunction_ok h
  obtain ⟨hok, hnil⟩ := FuncDecl.paramIssues_eq_nil_iff filename d.name hps []
  have hissues : FuncDecl.paramIssues filename d.name [] d.params = (.ok (), []) :=
    Prod.ext hok (hnil.mpr ⟨by simp, hparams⟩)
  have hnew' : Symbols.find? G (Symbol.func f).name = none := by
    show Symbols.find? G f.name = none
    rw [hname]
    exact hnew
  obtain ⟨a', hdeclare, H'⟩ := Arena.declareGlobal_new H hnew'
  refine ⟨a', ?_, H'⟩
  rw [FuncDecl.predeclare, hissues, h]
  simp only [hdeclare]

/-- Where the declaration of a function reports nothing, its name is new and its parameters are in
order. -/
theorem FuncDecl.predeclare_quiet {filename : Option String} (H : a.Holds g G F)
    (h : d.toFunction = .ok f) (hq : (d.predeclare filename g a).diagnostics = []) :
    f.ParamsInOrder ∧ Symbols.find? G d.name = none := by
  obtain ⟨hname, hps, -⟩ := FuncDecl.toFunction_ok h
  obtain ⟨hok, hnil⟩ := FuncDecl.paramIssues_eq_nil_iff filename d.name hps []
  rw [FuncDecl.predeclare] at hq
  generalize FuncDecl.paramIssues filename d.name [] d.params = issues at hq hok hnil
  obtain ⟨r, issues⟩ := issues
  obtain rfl : r = .ok () := hok
  simp only [h] at hq
  cases hfind : Symbols.find? G d.name with
  | none =>
      have hnew : Symbols.find? G (Symbol.func f).name = none := by
        show Symbols.find? G f.name = none
        rw [hname, hfind]
      obtain ⟨a', hdeclare, -⟩ := Arena.declareGlobal_new H hnew
      rw [hdeclare] at hq
      exact ⟨(hnil.mp hq).2, rfl⟩
  | some s =>
      have htaken : Symbols.find? G (Symbol.func f).name = some s := by
        show Symbols.find? G f.name = some s
        rw [hname, hfind]
      rw [Arena.declareGlobal_taken H htaken, Arena.globalFunction?, H.global? d.name, hfind] at hq
      cases s <;> simp [bind, Except.bind, pure, Except.pure] at hq

end Predeclare

/-- The functions of some declarations, all with parameters in order. -/
def FuncDecl.Describe (ds : List FuncDecl) (fs : List Function) : Prop :=
  List.Forall₂ (fun d f => d.toFunction = .ok f ∧ f.ParamsInOrder) ds fs

/-- Functions with distinct new names and parameters in order are all declared. -/
theorem FuncDecl.predeclareAll_ok (filename : Option String) {a : Arena} {g : Handle} {G : Symbols}
    {F : List Blocks} {ds : List FuncDecl} {fs : List Function} (H : a.Holds g G F)
    (hfs : FuncDecl.Describe ds fs) (hnodup : (ds.map (·.name)).Nodup)
    (hnew : ∀ d ∈ ds, Symbols.find? G d.name = none) :
    ∃ a', FuncDecl.predeclareAll filename g ds a = ⟨.ok (), [], a'⟩ ∧
      a'.Holds g (G ++ Symbol.named (fs.map .func)) F := by
  induction hfs generalizing a G with
  | nil => exact ⟨a, rfl, by simpa [Symbol.named] using H⟩
  | cons hf hfs ih =>
      rename_i d f ds fs
      rw [List.map_cons, List.nodup_cons] at hnodup
      obtain ⟨a₁, hfirst, H₁⟩ := FuncDecl.predeclare_ok filename H hf.1 hf.2 (hnew d (by simp))
      have hname := (FuncDecl.toFunction_ok hf.1).1
      have hnew' : ∀ d' ∈ ds, Symbols.find? (G ++ [(f.name, .func f)]) d'.name = none := by
        intro d' hd'
        have hne : d'.name ≠ f.name := fun e =>
          hnodup.1 (hname ▸ e ▸ List.mem_map_of_mem hd')
        have hold := hnew d' (by simp [hd'])
        unfold Symbols.find? at hold ⊢
        rw [List.lookup_append, hold]
        simp [hne]
      obtain ⟨a₂, hrest, H₂⟩ := ih H₁ hnodup.2 hnew'
      refine ⟨a₂, ?_, by simpa [Symbol.named, Symbol.name] using H₂⟩
      rw [FuncDecl.predeclareAll, hfirst]
      simp only [hrest, List.append_nil]

/-- Where the declaration of functions reports nothing, their names are new and distinct, and their
parameters are in order. -/
theorem FuncDecl.predeclareAll_quiet {filename : Option String} {a : Arena} {g : Handle}
    {G : Symbols} {F : List Blocks} {ds : List FuncDecl} (H : a.Holds g G F)
    (hspelled : ∀ d ∈ ds, ∃ f, d.toFunction = .ok f)
    (hq : (FuncDecl.predeclareAll filename g ds a).diagnostics = []) :
    (∃ fs, FuncDecl.Describe ds fs) ∧ (ds.map (·.name)).Nodup ∧
      ∀ d ∈ ds, Symbols.find? G d.name = none := by
  induction ds generalizing a G with
  | nil => exact ⟨⟨[], .nil⟩, by simp, by simp⟩
  | cons d ds ih =>
      obtain ⟨f, hf⟩ := hspelled d (by simp)
      have hname := (FuncDecl.toFunction_ok hf).1
      have hfirst : (d.predeclare filename g a).diagnostics = [] := by
        rw [FuncDecl.predeclareAll] at hq
        split at hq
        · exact hq
        · exact (List.append_eq_nil_iff.mp hq).1
      obtain ⟨hparams, hnew⟩ := FuncDecl.predeclare_quiet H hf hfirst
      obtain ⟨a₁, heq, H₁⟩ := FuncDecl.predeclare_ok filename H hf hparams hnew
      have hrest : (FuncDecl.predeclareAll filename g ds a₁).diagnostics = [] := by
        rw [FuncDecl.predeclareAll, heq] at hq
        exact (List.append_eq_nil_iff.mp hq).2
      obtain ⟨⟨fs, hfs⟩, hnodup, hnew'⟩ := ih H₁ (fun d' hd' => hspelled d' (by simp [hd'])) hrest
      -- a later function is not found in the scope that the first one has been added to
      have hsplit : ∀ d' ∈ ds, Symbols.find? G d'.name = none ∧ d'.name ≠ d.name := by
        intro d' hd'
        have h := hnew' d' hd'
        unfold Symbols.find? at h ⊢
        rw [List.lookup_append, Option.or_eq_none_iff] at h
        refine ⟨h.1, fun e => ?_⟩
        rw [hname, e] at h
        simp at h
      refine ⟨⟨f :: fs, .cons ⟨hf, hparams⟩ hfs⟩, ?_, ?_⟩
      · rw [List.map_cons, List.nodup_cons]
        refine ⟨fun hmem => ?_, hnodup⟩
        obtain ⟨d', hd', e⟩ := List.mem_map.mp hmem
        exact (hsplit d' hd').2 e
      · intro d' hd'
        rw [List.mem_cons] at hd'
        rcases hd' with rfl | hd'
        · exact hnew
        · exact (hsplit d' hd').1

/-! ## The meaning of the global scope -/

/-- Looking up after a change of the values. -/
theorem lookup_map {β γ : Type} (h : β → γ) (l : List (String × β)) (name : String) :
    (l.map fun e => (e.1, h e.2)).lookup name = (l.lookup name).map h := by
  induction l with
  | nil => rfl
  | cons e l ih =>
      rw [List.map_cons, List.lookup_cons, List.lookup_cons, ih]
      cases name == e.1 <;> rfl

/-- The types of the parameters of a native function are those that it was registered with. -/
theorem NativeFunction.map_ty_parameters (f : NativeFunction) :
    f.parameters.map (·.ty) = f.params := by
  unfold NativeFunction.parameters
  rw [List.map_map]
  exact List.zipIdx_map_fst 0 f.params

/-- Natives and functions under their names mean what the globals of the program say. -/
theorem Program.means_globals {natives : Natives} {p : Program} {fs : List Function}
    (hfs : FuncDecl.Describe p.functions fs) :
    Symbols.Means (Symbol.named natives.symbols ++ Symbol.named (fs.map .func))
      (p.globals natives) := by
  have hnatives : (Symbol.named natives.symbols).map (fun e => (e.1, e.2.entity?)) =
      natives.entities.map (fun e => (e.1, some e.2)) := by
    unfold Symbol.named Natives.symbols Natives.entities
    simp only [List.map_append, List.map_map]
    congr 1
    refine List.map_congr_left fun f _ => ?_
    show (f.name, some (Entity.func ⟨f.returns, f.parameters.map (·.ty)⟩)) = _
    rw [f.map_ty_parameters]
    rfl
  have hfunctions : (Symbol.named (fs.map .func)).map (fun e => (e.1, e.2.entity?)) =
      (p.functions.filterMap FuncDecl.entity?).map (fun e => (e.1, some e.2)) := by
    generalize p.functions = ds at hfs
    induction hfs with
    | nil => rfl
    | cons hf hfs ih =>
        rename_i d f ds fs
        have hentity : d.entity? = some (f.name, .func f.signature) := by
          rw [FuncDecl.entity?, hf.1, (FuncDecl.toFunction_ok hf.1).1]
        rw [List.filterMap_cons, hentity]
        exact congrArg (_ :: ·) ih
  intro name
  show (List.lookup name _).map _ = (List.lookup name _).map _
  rw [← lookup_map, ← lookup_map, List.map_append, List.map_append, hnatives, hfunctions]

end Pigeon
