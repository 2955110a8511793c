import Pigeon.Proofs.Session.Hoisted
import Pigeon.Proofs.Session.Reported
import Pigeon.Proofs.Typing.Inquiry

/-!
# The recorded types are complete

While a program is checked, the type of an expression may stay unknown, but never without a report
before. So after a check without diagnostics a type is recorded for every expression of the program,
wherever it stands, and for nothing else.
-/

namespace Pigeon

/-! ## Global variables -/

/-- What holds of all functions, and of the global symbols before functions are declared, holds of
the global symbols afterwards. -/
theorem Symbols.forall_addFunctions {P : String × Symbol → Prop}
    (hP : ∀ f : Function, P (f.name, .func f)) (fs : List Function) {G : Symbols}
    (hG : ∀ x ∈ G, P x) : ∀ x ∈ G.addFunctions fs, P x := by
  induction fs generalizing G with
  | nil => exact hG
  | cons f fs ih =>
      refine ih (G := G.addFunction f) ?_
      unfold addFunction
      split
      · intro x hx
        rcases List.mem_append.mp hx with hx | hx
        · exact hG x hx
        · rw [List.mem_singleton.mp hx]
          exact hP f
      · exact hG

/-- The variables of the host have types. -/
theorem Natives.typed_symbols (natives : Natives) :
    ∀ x ∈ Symbol.named natives.symbols, ∀ v, x.2 = .var v → v.ty ≠ none := by
  intro x hx v hv
  obtain ⟨s, hs, rfl⟩ := List.mem_map.mp hx
  rcases List.mem_append.mp hs with hs | hs
  · obtain ⟨w, -, rfl⟩ := List.mem_map.mp hs
    cases hv
    exact Option.some_ne_none _
  · obtain ⟨f, -, rfl⟩ := List.mem_map.mp hs
    cases hv

/-! ## The record of a session -/

/-- The first record of types is what the check has found. -/
theorem Annotations.overlay_empty (found : Array (Option Ty)) :
    overlay {} found = { current := found } := by
  have hcurrent : (overlay {} found).current = found := by
    apply Array.ext
    · simp [overlay]
    · intro i _ hi
      simp [overlay, get?, Array.getElem?_eq_getElem hi]
  calc overlay {} found
      = { current := (overlay {} found).current } := rfl
    _ = { current := found } := by rw [hcurrent]

namespace Session

variable {natives : Natives} {p : Program} {source : String} {filename : Option String}
  {s : Session}

/-- The verdicts of the check of the program, if there is one. -/
def verdicts (s : Session) : List Verdict :=
  match s.program with
  | none => []
  | some p => p.verdicts s.globals s.arena

/-- The recorded types are those of all expressions of the program, and no others. -/
structure Annotated (s : Session) (p : Program) : Prop where
  count_eq : s.annotations.count = p.exprs.length
  typeOf_eq : ∀ i < p.exprs.length, ∃ t, s.annotations.get? i = some t ∧ typeOf i s = (.ok t, s)
  get?_eq_none : ∀ i, p.exprs.length ≤ i → s.annotations.get? i = none

/-- A session is annotated once types were found for all expressions of its program. -/
theorem annotated_of_found {found : Array (Option Ty)} (hp : s.program = some p)
    (hs : s.annotations = .overlay {} found) (hsize : found.size = p.exprs.length)
    (hfound : ∀ t ∈ found, t ≠ none) : s.Annotated p := by
  rw [Annotations.overlay_empty] at hs
  refine ⟨?_, fun i hi => ?_, fun i hi => ?_⟩
  · have hall : found.countP (·.isSome) = found.size :=
      Array.countP_eq_size.mpr fun t ht => Option.isSome_iff_ne_none.mpr (hfound t ht)
    rw [hs, Annotations.count, hall, hsize, Nat.zero_add]
  · have hlt : i < found.size := hsize ▸ hi
    obtain ⟨t, ht⟩ := Option.ne_none_iff_exists'.mp (hfound _ (Array.getElem_mem hlt))
    have hget : s.annotations.get? i = some t := by
      rw [hs, Annotations.get?, Array.getElem?_eq_getElem hlt, ht]
      rfl
    refine ⟨t, hget, ?_⟩
    unfold typeOf
    rw [Step.bind_ok (Step.get_apply s), hp]
    simp [List.getElem?_eq_getElem hi, hget]
  · rw [hs, Annotations.get?, Array.getElem?_eq_none (hsize ▸ hi)]
    rfl

/-- Let natives be registered and a program be read from source text. It is loaded without a
failure. Whenever the check has found no type for an expression, it had reported something by then.
There is one verdict for each expression of the program, and it is the recorded type. If there are
no diagnostics in the end, all expressions have a recorded type, and nothing else has one. -/
theorem annotations_complete (hn : natives.Registered)
    (hp : Program.ofSource source unnamedSource filename = .ok p) (host : Host)
    (context : Option LogContext) (time : String) :
    ∃ s₀ s, prepare source filename (start natives host context time) = (.ok (), s₀) ∧
      load source filename (start natives host context time) = (.ok (), s) ∧
      (∃ j, check s₀ = (.ok (), { s with journal := j })) ∧
      (∀ v ∈ s₀.verdicts, s₀.diagnostics ++ v.diagnostics <+: s.diagnostics ∧
        (v.found = none → v.diagnostics ≠ [])) ∧
      (s₀.verdicts.map Verdict.entry).Perm s.types.zipIdx ∧ s.types.map (·.1) = p.exprs ∧
      (s.diagnostics = [] → s.Annotated p) := by
  obtain ⟨a, fs, reports, H, hresult, -, hprepare, hload⟩ := load_checks hn hp host context time
  let s₁ : Session := { installed natives host p a with diagnostics := reports }
  obtain ⟨j₀, hprepare⟩ := hprepare { context := context, time := time }
  obtain ⟨j, hload⟩ := hload { context := context, time := time }
  obtain ⟨j', hchecked⟩ := check_takes (s := s₁) (p := p) rfl j₀
  -- what the check has found in scopes without unknown types
  have htyped : a.Typed :=
    H.all (Symbols.forall_addFunctions (fun _ => nofun) _ natives.typed_symbols) nofun
  obtain ⟨hverdicts, hsize, hperm⟩ := Program.verdicts_record htyped hresult
  have htypes : (s₁.checked p).types = p.exprs.zip (p.check 0 a).types.toList :=
    types_eq_zip rfl rfl hsize
  refine ⟨_, _, hprepare, hload, ⟨j', hchecked.trans ?_⟩, fun v hv => ?_, ?_, ?_, fun hd => ?_⟩
  · show ((p.check 0 a).result, _) = _
    rw [hresult]
  · obtain ⟨hgrows, hwarned⟩ := hverdicts v hv
    exact ⟨(List.prefix_append_right_inj reports).mpr hgrows, hwarned⟩
  · exact htypes ▸ hperm
  · have hfst : (s₁.checked p).types.map (·.1) = p.exprs := by
      rw [htypes, List.map_fst_zip hsize.ge]
    exact hfst
  · obtain ⟨-, hquiet⟩ := List.append_eq_nil_iff.mp hd
    exact annotated_of_found rfl rfl hsize (Program.types_ne_none htyped hresult hquiet)

/-- A name without a meaning is reported once, and not again in the block that reads the variable. -/
example :
    (prepare "let x = y; if true let z = x;" none (start Console.natives {} none "")).2.verdicts.map
      (fun v => (v.found, v.diagnostics.length)) = [(none, 1), (some .bool, 1), (none, 1)] := by
  decide +kernel

/-- A program whose expressions stand in a function, behind a return, in the bounds of a loop and
among the arguments of a call. -/
def scatteredSource : String :=
  "int half(int n) \x7b return n / 2; print(n); \x7d for i = 0 to half(9) print(i);"

/-- All of them have a recorded type. -/
theorem annotations_complete_scattered :
    ∃ p s, Program.ofSource scatteredSource unnamedSource none = .ok p ∧
      load scatteredSource none (start Console.natives {} none "") = (.ok (), s) ∧
      s.diagnostics = [] ∧ p.exprs.length = 10 ∧ s.Annotated p := by
  have hlength : (Program.ofSource scatteredSource unnamedSource none).map (·.exprs.length) =
      .ok 10 := by decide +kernel
  have hquiet : (load scatteredSource none
      (start Console.natives {} none "")).2.diagnostics.isEmpty = true := by decide +kernel
  obtain ⟨p, hp, hlength⟩ := exists_of_map_eq_ok hlength
  obtain ⟨_, s, -, hload, -, -, -, -, hclean⟩ :=
    annotations_complete Console.natives_registered hp {} none ""
  rw [hload] at hquiet
  have hd : s.diagnostics = [] := List.isEmpty_iff.mp hquiet
  exact ⟨p, s, hp, hload, hd, hlength, hclean hd⟩

end Session

end Pigeon
