import Pigeon.Proofs.Typing.Hoisted

/-!
# The first declaration of a name counts

The declaration of the functions of a program is described by their places in the source. A function
is reported as a clash if a native or a function further up has its name; all others are added to
the global scope. The reports about the parameters of a function come before the clash.

This holds for every scope of natives in any arena, and no other scope is touched.
-/

namespace Pigeon

/-! ## Reports by place -/

/-- What is reported about a parameter with some others to its left. -/
def Param.reports (q : Param) (filename : Option String) (function : String)
    (earlier : List Param) : List Diagnostic :=
  (if q.name ∈ earlier.map (·.name) then
    [(Issue.duplicateParam q.name function).diagnostic filename q.span] else []) ++
  (if q.typeName = "void" then
    [(Issue.voidParam q.name function).diagnostic filename q.span] else [])

/-- What is reported about the name of a function with some others further up. -/
def FuncDecl.nameReports (d : FuncDecl) (filename : Option String) (natives : Symbols)
    (earlier : List FuncDecl) : List Diagnostic :=
  if natives.contains d.name then
    [(Issue.functionClash d.name false).diagnostic filename d.span]
  else if d.name ∈ earlier.map (·.name) then
    [(Issue.functionClash d.name true).diagnostic filename d.span]
  else []

/-- What is reported about a function with some others further up: first its parameters, from left
to right, and then its name. -/
def FuncDecl.declarationReports (d : FuncDecl) (filename : Option String) (natives : Symbols)
    (earlier : List FuncDecl) : List Diagnostic :=
  d.params.zipIdx.flatMap (fun (q, j) => q.reports filename d.name (d.params.take j)) ++
    d.nameReports filename natives earlier

/-- What is reported about the functions of a program, in source order. -/
def Program.declarationReports (p : Program) (filename : Option String) (natives : Symbols) :
    List Diagnostic :=
  p.functions.zipIdx.flatMap fun (d, i) =>
    d.declarationReports filename natives (p.functions.take i)

/-- The first of some elements behind earlier ones, and then the others. -/
theorem flatMap_zipIdx_take_cons {α β : Type} (f : List α → α → List β) (earlier : List α) (x : α)
    (l : List α) :
    ((x :: l).zipIdx earlier.length).flatMap (fun y => f ((earlier ++ x :: l).take y.2) y.1) =
      f earlier x ++ (l.zipIdx (earlier ++ [x]).length).flatMap
        fun y => f ((earlier ++ [x] ++ l).take y.2) y.1 := by
  rw [List.zipIdx_cons, List.flatMap_cons, List.take_left, List.append_cons, List.length_append]
  rfl

/-! ## Parameters -/

/-- The type of a name in a tree has this name. -/
theorem Ty.name_of_ofName {name : String} {t : Ty} (h : Ty.ofName name = .ok t) :
    t.name = name := by
  unfold Ty.ofName at h
  split at h
  · next t' hfind =>
      cases h
      simpa using List.find?_some hfind
  · cases h

theorem Ty.name_eq_void_iff {t : Ty} : t.name = "void" ↔ t = .void := by
  cases t <;> decide

/-- The parameters of a function have the names and types of its declaration. -/
theorem Param.map_parameters {params : List Param} {qs : List Parameter}
    (h : Param.parameters params = .ok qs) :
    qs.map (fun q => (q.name, q.ty.name)) = params.map fun q => (q.name, q.typeName) := by
  induction params generalizing qs with
  | nil =>
      cases h
      rfl
  | cons p ps ih =>
      obtain ⟨t, qs', ht, hqs, rfl⟩ := Param.parameters_cons h
      rw [List.map_cons, List.map_cons, ih hqs, Ty.name_of_ofName ht]

/-- Parameters are reported by their places; `seen` are the names of the earlier ones. -/
theorem FuncDecl.paramIssues_eq (filename : Option String) (function : String)
    {params : List Param} {qs : List Parameter} (h : Param.parameters params = .ok qs)
    (earlier : List Param) {seen : List String}
    (hseen : ∀ n, n ∈ seen ↔ n ∈ earlier.map (·.name)) :
    FuncDecl.paramIssues filename function seen params =
      (.ok (), (params.zipIdx earlier.length).flatMap fun x =>
        x.1.reports filename function ((earlier ++ params).take x.2)) := by
  induction params generalizing qs earlier seen with
  | nil => rfl
  | cons p ps ih =>
      obtain ⟨t, qs', ht, hqs, rfl⟩ := Param.parameters_cons h
      have hseen' : ∀ n, n ∈ p.name :: seen ↔ n ∈ (earlier ++ [p]).map (·.name) := by
        intro n
        rw [List.mem_cons, hseen, List.map_append, List.mem_append, or_comm]
        simp
      have hvoid : t = .void ↔ p.typeName = "void" := by
        rw [← Ty.name_of_ofName ht, Ty.name_eq_void_iff]
      rw [FuncDecl.paramIssues, ht,
        flatMap_zipIdx_take_cons fun before (q : Param) => q.reports filename function before]
      simp only [ih hqs _ hseen', Param.reports, List.contains_iff_mem, hseen, hvoid]

/-! ## Functions -/

/-- The symbol belongs to the host. -/
def Symbol.IsNative : Symbol → Prop
  | .var _ => True
  | .func f => f.isNative = true

/-- The function has the name, the types and the body of the declaration. -/
structure FuncDecl.Describes (d : FuncDecl) (f : Function) : Prop where
  name_eq : f.name = d.name
  returns_eq : f.returns.name = d.returnType
  params_eq : f.params.map (fun q => (q.name, q.ty.name)) =
    d.params.map fun q => (q.name, q.typeName)
  body_eq : f.body = .declared d.body

/-- The function of a declaration has its name, parameters and body. -/
theorem FuncDecl.describes_of_toFunction {d : FuncDecl} {f : Function} (h : d.toFunction = .ok f) :
    d.Describes f := by
  obtain ⟨hname, hparams, hbody⟩ := FuncDecl.toFunction_ok h
  refine ⟨hname, ?_, Param.map_parameters hparams, hbody⟩
  unfold FuncDecl.toFunction at h
  rw [hparams] at h
  cases hreturns : Ty.ofName d.returnType with
  | error e =>
      rw [hreturns] at h
      cases h
  | ok t =>
      rw [hreturns] at h
      rw [← Except.ok.inj h]
      exact Ty.name_of_ofName hreturns

section Describe

variable {describe : FuncDecl → Function} {ds : List FuncDecl}

/-- The function that is found under a name is that of the first declaration. -/
theorem FuncDecl.lookup_describe (hds : ∀ d ∈ ds, d.toFunction = .ok (describe d))
    (name : String) :
    ((ds.map describe).map fun f => (f.name, Symbol.func f)).lookup name =
      (ds.find? (·.name = name)).map fun d => .func (describe d) := by
  induction ds with
  | nil => rfl
  | cons d ds ih =>
      obtain ⟨hd, hds⟩ := List.forall_mem_cons.mp hds
      rw [List.map_cons, List.map_cons, List.lookup_cons, (FuncDecl.toFunction_ok hd).1,
        List.find?_cons, ih hds]
      by_cases hname : d.name = name
      · simp [hname]
      · simp [hname, beq_eq_false_iff_ne.mpr (Ne.symm hname)]

/-- The symbol of a name once functions are declared: a native, or else the function of the first
declaration. -/
theorem FuncDecl.find?_addFunctions (G : Symbols)
    (hds : ∀ d ∈ ds, d.toFunction = .ok (describe d)) (name : String) :
    (G.addFunctions (ds.map describe)).find? name =
      (G.find? name).or ((ds.find? (·.name = name)).map fun d => .func (describe d)) := by
  rw [Symbols.find?_addFunctions, FuncDecl.lookup_describe hds]

/-- A function is reported by its place behind others. -/
theorem FuncDecl.reports_eq (filename : Option String) {G : Symbols}
    (hnatives : ∀ e ∈ G, e.2.IsNative) (hds : ∀ d ∈ ds, d.toFunction = .ok (describe d))
    {d : FuncDecl} {f : Function} (hd : d.toFunction = .ok f) :
    d.reports filename ((G.addFunctions (ds.map describe)).find? d.name) =
      d.declarationReports filename G ds := by
  obtain ⟨-, hps, -⟩ := FuncDecl.toFunction_ok hd
  rw [FuncDecl.reports, FuncDecl.declarationReports,
    FuncDecl.paramIssues_eq filename d.name hps [] (by simp), FuncDecl.find?_addFunctions G hds]
  congr 1
  unfold FuncDecl.nameReports
  cases hfind : G.find? d.name with
  | some s =>
      -- a native has the name, and stands before all functions of the program
      rw [if_pos ((Symbols.contains_iff _ _).mpr ⟨s, hfind⟩), Option.some_or]
      have hnative := hnatives _ (Symbols.mem_of_find? hfind)
      cases s with
      | var v => rfl
      | func f =>
          have hnative : f.isNative = true := hnative
          rw [FuncDecl.clash, hnative]
          rfl
  | none =>
      rw [(Symbols.contains_eq_false_iff _ _).mpr hfind, Option.none_or, if_neg Bool.false_ne_true]
      cases hearlier : ds.find? (·.name = d.name) with
      | none =>
          have hnew : d.name ∉ ds.map (·.name) := by
            intro hmem
            obtain ⟨e, he, hname⟩ := List.mem_map.mp hmem
            exact List.find?_eq_none.mp hearlier e he (decide_eq_true hname)
          rw [if_neg hnew]
          rfl
      | some e =>
          have he := List.mem_of_find?_eq_some hearlier
          have hname : e.name = d.name := by simpa using List.find?_some hearlier
          have hbody := (FuncDecl.toFunction_ok (hds e he)).2.2
          rw [if_pos (hname ▸ List.mem_map_of_mem he), Option.map_some, FuncDecl.clash,
            Function.isNative, hbody]
          rfl

/-- Functions that are declared behind others are reported by their places. -/
theorem FuncDecl.reportsAll_eq_flatMap (filename : Option String) {G : Symbols}
    (hnatives : ∀ e ∈ G, e.2.IsNative) (earlier : List FuncDecl)
    (hds : ∀ d ∈ earlier ++ ds, d.toFunction = .ok (describe d)) :
    FuncDecl.reportsAll filename describe (G.addFunctions (earlier.map describe)) ds =
      (ds.zipIdx earlier.length).flatMap fun x =>
        x.1.declarationReports filename G ((earlier ++ ds).take x.2) := by
  induction ds generalizing earlier with
  | nil => rfl
  | cons d ds ih =>
      have hnext : (G.addFunctions (earlier.map describe)).addFunction (describe d) =
          G.addFunctions ((earlier ++ [d]).map describe) := by
        simp [Symbols.addFunctions, List.foldl_append]
      rw [flatMap_zipIdx_take_cons fun before (e : FuncDecl) =>
          e.declarationReports filename G before,
        FuncDecl.reportsAll, hnext, ih (earlier ++ [d]) (by simpa using hds),
        FuncDecl.reports_eq filename hnatives (fun e he => hds e (by simp [he]))
          (hds d (by simp))]

end Describe

/-! ## Scopes in an arena -/

/-- A scope that can be read stands in its slot. -/
theorem Arena.slot_of_get {a : Arena} {h : Handle} {c : Scope} (hc : a.get h = .ok c) :
    a.slots[h]? = some (some c) := by
  unfold Arena.get at hc
  split at hc
  · cases hc
  · cases hc
  · next hslot =>
      cases hc
      exact hslot

/-- The declaration of a function adds it to the symbols of its scope and touches no other one. -/
theorem FuncDecl.predeclare_slots {a : Arena} {g : Handle} {c : Scope} {d : FuncDecl}
    {f : Function} (filename : Option String) (hc : a.slots[g]? = some (some c))
    (h : d.toFunction = .ok f) :
    ∃ a', d.predeclare filename g a = ⟨.ok (), d.reports filename (c.symbols.find? d.name), a'⟩ ∧
      a'.slots[g]? = some (some { c with symbols := c.symbols.addFunction f }) ∧
      ∀ k, k ≠ g → a'.slots[k]? = a.slots[k]? := by
  refine ⟨_, FuncDecl.predeclare_slot filename hc h, ?_⟩
  unfold Symbols.addFunction
  cases hfind : c.symbols.find? f.name with
  | none =>
      refine ⟨?_, fun k hk => ?_⟩
      · rw [Arena.store_slots, if_pos rfl, hc, ← Symbols.insert_of_find?_eq_none _ hfind]
        rfl
      · rw [Arena.store_slots, if_neg (Ne.symm hk)]
  | some s => exact ⟨hc, fun _ _ => rfl⟩

/-- Declaring functions in a scope adds the first one of each name to its symbols and reports what
is wrong, in order. -/
theorem FuncDecl.predeclareAll_slots {a : Arena} {g : Handle} {c : Scope} {ds : List FuncDecl}
    {describe : FuncDecl → Function} (filename : Option String)
    (hc : a.slots[g]? = some (some c)) (hds : ∀ d ∈ ds, d.toFunction = .ok (describe d)) :
    ∃ a', FuncDecl.predeclareAll filename g ds a =
        ⟨.ok (), FuncDecl.reportsAll filename describe c.symbols ds, a'⟩ ∧
      a'.slots[g]? = some (some { c with symbols := c.symbols.addFunctions (ds.map describe) }) ∧
      ∀ k, k ≠ g → a'.slots[k]? = a.slots[k]? := by
  induction ds generalizing a c with
  | nil => exact ⟨a, rfl, hc, fun _ _ => rfl⟩
  | cons d ds ih =>
      obtain ⟨hd, hds⟩ := List.forall_mem_cons.mp hds
      obtain ⟨a₁, hfirst, hc₁, hother₁⟩ := FuncDecl.predeclare_slots filename hc hd
      obtain ⟨a₂, hrest, hc₂, hother₂⟩ := ih hc₁ hds
      refine ⟨a₂, ?_, hc₂, fun k hk => (hother₂ k hk).trans (hother₁ k hk)⟩
      rw [FuncDecl.predeclareAll, hfirst]
      simp only [hrest, FuncDecl.reportsAll]

/-! ## Programs -/

namespace Program

/-- Let a program be read from source text, and let a scope hold natives only. The declaration of
the functions of the program succeeds. The natives keep their symbols, every other name of a
function gets the signature and the body of its first declaration, and nothing else gets a symbol.
The reports come in source order. -/
theorem first_declared {source sourceName : String} {filename : Option String} {p : Program}
    (hp : Program.ofSource source sourceName filename = .ok p) {a : Arena} {g : Handle} {c : Scope}
    (hc : a.get g = .ok c) (hnatives : ∀ e ∈ c.symbols, e.2.IsNative) (file : Option String) :
    ∃ a' symbols,
      FuncDecl.predeclareAll file g p.functions a =
        ⟨.ok (), p.declarationReports file c.symbols, a'⟩ ∧
      a'.get g = .ok { c with symbols := symbols } ∧ (∀ h, h ≠ g → a'.get h = a.get h) ∧
      ∀ name : String,
        match c.symbols.find? name, p.functions.find? (·.name = name) with
        | some s, _ => symbols.find? name = some s
        | none, some d => ∃ f, d.Describes f ∧ symbols.find? name = some (.func f)
        | none, none => symbols.find? name = none := by
  obtain ⟨describe, hds⟩ := (plain_of_ofSource hp).exists_functions
  obtain ⟨a', hdeclare, hslot, hother⟩ :=
    FuncDecl.predeclareAll_slots file (Arena.slot_of_get hc) hds
  have hreports := FuncDecl.reportsAll_eq_flatMap file hnatives [] hds
  refine ⟨a', _, ?_, Arena.get_eq_ok hslot, fun h hh => ?_, fun name => ?_⟩
  · rw [hdeclare]
    exact congrArg (Predeclared.mk (.ok ()) · a') hreports
  · rw [Arena.get, Arena.get, hother h hh]
  · rw [FuncDecl.find?_addFunctions c.symbols hds]
    cases c.symbols.find? name with
    | some s => rfl
    | none =>
        cases hfirst : p.functions.find? (·.name = name) with
        | none => rfl
        | some d =>
            have hd := hds d (List.mem_of_find?_eq_some hfirst)
            exact ⟨describe d, FuncDecl.describes_of_toFunction hd, rfl⟩

/-- A program in which names repeat among natives, functions and parameters. -/
def repeatingSource : String :=
  "int f(int a, void a, int a) return 1; void print(int x) x = 1; bool f(void b) return true; " ++
    "int g() return 2;"

/-- Among the natives of the console, the first `f` and `g` are declared. -/
theorem first_declared_repeating :
    ∃ p a c, ofSource repeatingSource "" none = .ok p ∧ a.get 0 = .ok c ∧
      c.symbols = Symbol.named Console.natives.symbols ∧
      (∀ e ∈ c.symbols, e.2.IsNative) ∧
      (p.declarationReports none c.symbols).map (·.message) = [
        "[SIG-0020] duplicate parameter 'a' in function 'f'",
        "[SIG-0030] parameter 'a' of function 'f' cannot have type 'void'",
        "[SIG-0020] duplicate parameter 'a' in function 'f'",
        "[SIG-0010] function 'print' conflicts with an existing native of the same name",
        "[SIG-0030] parameter 'b' of function 'f' cannot have type 'void'",
        "[SIG-0010] function 'f' conflicts with an existing function of the same name"] ∧
      ∃ a' symbols,
        FuncDecl.predeclareAll none 0 p.functions a =
          ⟨.ok (), p.declarationReports none c.symbols, a'⟩ ∧
        a'.get 0 = .ok { c with symbols := symbols } ∧ (∀ h, h ≠ 0 → a'.get h = a.get h) ∧
        ∀ name : String,
          match c.symbols.find? name, p.functions.find? (·.name = name) with
          | some s, _ => symbols.find? name = some s
          | none, some d => ∃ f, d.Describes f ∧ symbols.find? name = some (.func f)
          | none, none => symbols.find? name = none := by
  have hmessages : (ofSource repeatingSource "" none).map (fun p =>
      (p.declarationReports none (Symbol.named Console.natives.symbols)).map (·.message)) = .ok [
        "[SIG-0020] duplicate parameter 'a' in function 'f'",
        "[SIG-0030] parameter 'a' of function 'f' cannot have type 'void'",
        "[SIG-0020] duplicate parameter 'a' in function 'f'",
        "[SIG-0010] function 'print' conflicts with an existing native of the same name",
        "[SIG-0030] parameter 'b' of function 'f' cannot have type 'void'",
        "[SIG-0010] function 'f' conflicts with an existing function of the same name"] := by
    decide +kernel
  obtain ⟨p, hp, hmessages⟩ := exists_of_map_eq_ok hmessages
  obtain ⟨a, -, H⟩ := Console.natives_registered.install Arena.holds_start.2
  have hc := Arena.get_eq_ok H.root
  have hnatives : ∀ e ∈ Symbol.named Console.natives.symbols, e.2.IsNative := by
    simp [Symbol.named, Natives.symbols, Console.natives, NativeFunction.symbol, Symbol.IsNative,
      Function.isNative]
  exact ⟨p, a, _, hp, hc, rfl, hnatives, hmessages, first_declared hp hc hnatives none⟩

end Program

end Pigeon
