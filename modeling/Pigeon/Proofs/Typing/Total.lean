import Pigeon.Proofs.Grammar.Plain
import Pigeon.Proofs.Typing.Findings
import Pigeon.Proofs.Typing.Predeclare

/-!
# The analysis of a program is total

After a program was read, its analysis ends without a failure: the natives are installed, the
functions are declared and the items are checked, however ill-typed the program is. Afterwards the
global scope is the only one alive, and the check has left it as it was.

What the check finds is given item by item (`Program.Finds`), so it does not depend on where the
functions stand among the statements.
-/

namespace Pigeon

open Blocks

/-! ## Programs -/

/-- All expressions inside an item. -/
def Item.exprs : Item → List Expr
  | .func d => d.body.exprs
  | .stmt s => s.exprs

/-- The declaration of an item that is a function. -/
def Item.func? : Item → Option FuncDecl
  | .func d => some d
  | .stmt _ => none

/-- The statement of an item that is one. -/
def Item.stmt? : Item → Option Stmt
  | .func _ => none
  | .stmt s => some s

theorem Program.exprs_eq (p : Program) : p.exprs = p.items.flatMap Item.exprs := rfl

theorem Program.functions_eq (p : Program) : p.functions = p.items.filterMap Item.func? := rfl

theorem Program.statements_eq (p : Program) : p.statements = p.items.filterMap Item.stmt? := rfl

/-- The checks of statements, one after another in one block, find this. -/
inductive Check.StmtsFind (site : CheckSite) (Δ : Environment) :
    Environment → List Stmt → List Findings → Prop
  | nil {b : Environment} : StmtsFind site Δ b [] []
  | cons {b b' : Environment} {s : Stmt} {ss : List Stmt} {r : Bool} {φ : Findings}
      {φs : List Findings} :
      Finds site.filename site.globals Δ [b] (checkStmt site s) r φ [b'] →
      φ.types.length = s.exprs.length → StmtsFind site Δ b' ss φs →
      StmtsFind site Δ b (s :: ss) (φ :: φs)

/-- Plain statements in a row have findings, each from the block that those before it leave. -/
theorem Check.exists_stmtsFind (site : CheckSite) (Δ : Environment) {ss : List Stmt}
    (hss : ∀ s ∈ ss, s.Plain) (b : Environment) : ∃ φs, StmtsFind site Δ b ss φs := by
  induction ss generalizing b with
  | nil => exact ⟨[], .nil⟩
  | cons s ss ih =>
      rw [List.forall_mem_cons] at hss
      obtain ⟨r, φ, _, hφ, hlength, b', rfl⟩ :=
        checkStmt_ends (Δ := Δ) site (List.cons_ne_nil b []) s hss.1
      obtain ⟨φs, hφs⟩ := ih hss.2 b'
      exact ⟨φ :: φs, .cons hφ hlength hφs⟩

/-- The findings of a check in the order of the items: each function has the findings `F`, and the
statements have the given ones in turn. -/
def Item.weave (F : FuncDecl → Findings) : List Item → List Findings → List (Item × Findings)
  | .func d :: items, φs => (.func d, F d) :: weave F items φs
  | .stmt s :: items, φ :: φs => (.stmt s, φ) :: weave F items φs
  | _, _ => []

/-- All findings one after another. -/
def Findings.concat (φs : List Findings) : Findings :=
  ⟨φs.flatMap (·.issues), φs.flatMap (·.types)⟩

/-- What the check of the program finds, seen against the global symbols `Δ`, at each of its
functions and at its statements. -/
structure Program.Finds (p : Program) (g : Handle) (Δ : Environment) (F : FuncDecl → Findings)
    (φs : List Findings) : Prop where
  functions : ∀ d ∈ p.functions, (F d).types.length = d.body.exprs.length ∧
    ∀ bs, Check.Finds p.filename g Δ bs
      (Check.checkFunction { filename := p.filename, globals := g } d) () (F d) bs
  statements : Check.StmtsFind { filename := p.filename, globals := g } Δ .empty p.statements φs

/-- The check of a plain program finds something at each item. -/
theorem Program.Plain.exists_finds {p : Program} (hp : p.Plain) (g : Handle) (Δ : Environment) :
    ∃ F φs, p.Finds g Δ F φs := by
  have hfunctions : ∀ d : FuncDecl, ∃ φ : Findings, d ∈ p.functions →
      φ.types.length = d.body.exprs.length ∧ ∀ bs, Check.Finds p.filename g Δ bs
        (Check.checkFunction { filename := p.filename, globals := g } d) () φ bs := by
    intro d
    by_cases hd : d ∈ p.functions
    · obtain ⟨item, hitem, heq⟩ := List.mem_filterMap.mp hd
      cases item with
      | stmt s => cases heq
      | func d' =>
          cases heq
          obtain ⟨φ, hφ⟩ :=
            Check.checkFunction_finds { filename := p.filename, globals := g } Δ (hp _ hitem)
          exact ⟨φ, fun _ => hφ⟩
    · exact ⟨{}, fun h => absurd h hd⟩
  choose F hF using hfunctions
  have hplain : ∀ s ∈ p.statements, s.Plain := by
    intro s hs
    obtain ⟨item, hitem, heq⟩ := List.mem_filterMap.mp hs
    cases item with
    | func d => cases heq
    | stmt s' =>
        cases heq
        exact hp _ hitem
  obtain ⟨φs, hφs⟩ :=
    Check.exists_stmtsFind { filename := p.filename, globals := g } Δ hplain .empty
  exact ⟨F, φs, hF, hφs⟩

/-- The check of items finds what it finds at each of them, one after another. -/
theorem Check.checkItems_finds {site : CheckSite} {Δ : Environment} {F : FuncDecl → Findings}
    {items : List Item} {b : Environment} {φs : List Findings}
    (hF : ∀ d ∈ items.filterMap Item.func?, ∀ bs,
      Finds site.filename site.globals Δ bs (checkFunction site d) () (F d) bs)
    (hφs : StmtsFind site Δ b (items.filterMap Item.stmt?) φs) :
    ∃ b', Finds site.filename site.globals Δ [b] (checkItems site items) ()
      (.concat ((Item.weave F items φs).map (·.2))) [b'] := by
  induction items generalizing b φs with
  | nil => exact ⟨b, .pure ()⟩
  | cons item items ih =>
      cases item with
      | func d =>
          obtain ⟨hd, hF⟩ := List.forall_mem_cons.mp hF
          obtain ⟨b', hrest⟩ := ih hF hφs
          have hall := (hd [b]).bind (k := fun _ => checkItems site items) hrest
          exact ⟨b', hall⟩
      | stmt s =>
          replace hφs : StmtsFind site Δ b (s :: items.filterMap Item.stmt?) φs := hφs
          cases hφs with
          | cons hs _ hφs =>
              obtain ⟨b', hrest⟩ := ih hF hφs
              have hall := hs.bind (k := fun _ => checkItems site items) hrest
              exact ⟨b', hall⟩

/-- The check of a program ends without a failure. It leaves the global scope as it was, and no
other scope alive. -/
theorem Program.Finds.check_eq {p : Program} {g : Handle} {G : Symbols} {F : FuncDecl → Findings}
    {φs : List Findings} (h : p.Finds g G.find? F φs) {a : Arena} (H : a.Holds g G []) :
    ∃ a', a'.Holds g G [] ∧ let φ := Findings.concat ((Item.weave F p.items φs).map (·.2))
      p.check g a = ⟨.ok (), φ.diagnostics p.filename, φ.types.toArray, a'⟩ := by
  obtain ⟨k, a₁, hopen, -, H₁⟩ := Frame.openIn_eq H
  let site : CheckSite := { filename := p.filename, globals := g }
  have hfunctions : ∀ d ∈ p.items.filterMap Item.func?, ∀ bs, Check.Finds site.filename site.globals
      G.find? bs (Check.checkFunction site d) () (F d) bs := fun d hd => (h.functions d hd).2
  obtain ⟨b', hitems⟩ := Check.checkItems_finds hfunctions h.statements
  let c : Checker := { arena := a₁, frame := ⟨g, [k]⟩, diagnostics := [], types := #[] }
  have L : c.Lies g G [(k, [])] [] := ⟨H₁, rfl⟩
  obtain ⟨t, f', hrun, L', -, hd, htypes⟩ := hitems L rfl rfl
  obtain ⟨a', hcheck, H'⟩ :=
    Program.check_eq hopen hrun (congrArg Frame.blocks L'.frame_eq) L'.holds
  have htypes' : t.types =
      (Findings.concat ((Item.weave F p.items φs).map (·.2))).types.toArray := by
    apply Array.ext'
    rw [htypes]
    rfl
  refine ⟨a', H', ?_⟩
  rw [hcheck, hd, htypes']
  rfl

/-! ## Declaring functions -/

/-- The report about a function whose name has a symbol already. -/
def FuncDecl.clash (d : FuncDecl) (filename : Option String) : Option Symbol → List Diagnostic
  | none => []
  | some (.var _) => [(Issue.functionClash d.name false).diagnostic filename d.span]
  | some (.func f) => [(Issue.functionClash d.name (!f.isNative)).diagnostic filename d.span]

/-- What is reported about a function whose name has the given symbol: first the parameters. -/
def FuncDecl.reports (d : FuncDecl) (filename : Option String) (found : Option Symbol) :
    List Diagnostic :=
  (FuncDecl.paramIssues filename d.name [] d.params).2 ++ d.clash filename found

/-- The global symbols once a function is declared. The first symbol of a name stays. -/
def Symbols.addFunction (G : Symbols) (f : Function) : Symbols :=
  match G.find? f.name with
  | none => G ++ [(f.name, .func f)]
  | some _ => G

variable {a : Arena} {g : Handle} {G : Symbols} {F : List Blocks}

/-- The declaration of a function whose types are spelled correctly, in a scope anywhere in an
arena. -/
theorem FuncDecl.predeclare_slot {d : FuncDecl} {f : Function} {c : Scope}
    (filename : Option String) (hc : a.slots[g]? = some (some c)) (h : d.toFunction = .ok f) :
    d.predeclare filename g a = ⟨.ok (), d.reports filename (c.symbols.find? d.name),
      match c.symbols.find? f.name with
      | none => a.store g f.name (.func f)
      | some _ => a⟩ := by
  obtain ⟨hname, hps, -⟩ := FuncDecl.toFunction_ok h
  obtain ⟨hok, -⟩ := FuncDecl.paramIssues_eq_nil_iff filename d.name hps []
  have hglobal : a.global? g f.name = .ok (c.symbols.find? f.name) := by
    rw [Arena.global?, Arena.get_eq_ok hc]
    rfl
  unfold FuncDecl.predeclare FuncDecl.reports
  generalize FuncDecl.paramIssues filename d.name [] d.params = issues at hok ⊢
  obtain ⟨r, issues⟩ := issues
  obtain rfl : r = .ok () := hok
  simp only [h, Arena.declareGlobal_eq hc, Symbol.name, ← hname]
  cases hfind : c.symbols.find? f.name with
  | none => simp only [FuncDecl.clash, List.append_nil]
  | some s =>
      rw [Arena.globalFunction?, hglobal, hfind]
      cases s <;> simp [FuncDecl.clash, hname, bind, Except.bind, pure, Except.pure]

/-- The declaration of a function whose types are spelled correctly. -/
theorem FuncDecl.predeclare_eq {d : FuncDecl} {f : Function} (filename : Option String)
    (H : a.Holds g G F) (h : d.toFunction = .ok f) :
    ∃ a', d.predeclare filename g a = ⟨.ok (), d.reports filename (G.find? d.name), a'⟩ ∧
      a'.Holds g (G.addFunction f) F := by
  refine ⟨_, FuncDecl.predeclare_slot filename H.root h, ?_⟩
  unfold Symbols.addFunction
  cases hfind : Symbols.find? G f.name with
  | none =>
      rw [← Symbols.insert_of_find?_eq_none _ hfind]
      exact H.store_global f.name (.func f)
  | some s => exact H

/-- The global symbols once functions are declared one after another. -/
def Symbols.addFunctions (G : Symbols) (fs : List Function) : Symbols :=
  fs.foldl Symbols.addFunction G

section Describe

variable {describe : FuncDecl → Function}

/-- What is reported about functions that are declared one after another. -/
def FuncDecl.reportsAll (filename : Option String) (describe : FuncDecl → Function) :
    Symbols → List FuncDecl → List Diagnostic
  | _, [] => []
  | G, d :: ds =>
    d.reports filename (G.find? d.name) ++
      reportsAll filename describe (G.addFunction (describe d)) ds

/-- The declaration of functions whose types are spelled correctly. -/
theorem FuncDecl.predeclareAll_eq (filename : Option String) {ds : List FuncDecl}
    (hds : ∀ d ∈ ds, d.toFunction = .ok (describe d)) (H : a.Holds g G F) :
    ∃ a', FuncDecl.predeclareAll filename g ds a =
        ⟨.ok (), FuncDecl.reportsAll filename describe G ds, a'⟩ ∧
      a'.Holds g (G.addFunctions (ds.map describe)) F := by
  induction ds generalizing a G with
  | nil => exact ⟨a, rfl, H⟩
  | cons d ds ih =>
      rw [List.forall_mem_cons] at hds
      obtain ⟨a₁, hfirst, H₁⟩ := FuncDecl.predeclare_eq filename H hds.1
      obtain ⟨a₂, hrest, H₂⟩ := ih hds.2 H₁
      refine ⟨a₂, ?_, H₂⟩
      rw [FuncDecl.predeclareAll, hfirst]
      simp only [hrest, FuncDecl.reportsAll]

end Describe

/-- The functions of a plain program can be described. -/
theorem Program.Plain.exists_functions {p : Program} (hp : p.Plain) :
    ∃ describe : FuncDecl → Function, ∀ d ∈ p.functions, d.toFunction = .ok (describe d) := by
  have hspelled : ∀ d, ∃ f, d ∈ p.functions → d.toFunction = .ok f := by
    intro d
    by_cases hd : d ∈ p.functions
    · obtain ⟨f, hf⟩ := (hp _ (Program.mem_functions.mp hd)).1
      exact ⟨f, fun _ => hf⟩
    · exact ⟨⟨d.name, .void, [], .declared d.body⟩, fun h => absurd h hd⟩
  choose describe hdescribe using hspelled
  exact ⟨describe, hdescribe⟩

/-! ## The whole analysis -/

/-- What is found at an item belongs to it, with a type for each of its expressions. -/
theorem Item.weave_items {site : CheckSite} {Δ : Environment} {F : FuncDecl → Findings}
    {items : List Item} {b : Environment} {φs : List Findings}
    (hF : ∀ d ∈ items.filterMap Item.func?, (F d).types.length = d.body.exprs.length)
    (hφs : Check.StmtsFind site Δ b (items.filterMap Item.stmt?) φs) :
    List.Forall₂ (fun item (x : Item × Findings) => x.1 = item ∧
      x.2.types.length = item.exprs.length) items (Item.weave F items φs) := by
  induction items generalizing b φs with
  | nil => exact .nil
  | cons item items ih =>
      cases item with
      | func d =>
          obtain ⟨hd, hF⟩ := List.forall_mem_cons.mp hF
          exact .cons ⟨rfl, hd⟩ (ih hF hφs)
      | stmt s =>
          replace hφs : Check.StmtsFind site Δ b (s :: items.filterMap Item.stmt?) φs := hφs
          cases hφs with
          | cons _ hs hφs => exact .cons ⟨rfl, hs⟩ (ih hF hφs)

/-- The findings in the order of the items belong to the items, with one type for each expression.
-/
theorem Program.Finds.weave_items {p : Program} {Δ : Environment} {F : FuncDecl → Findings}
    {φs : List Findings} (h : p.Finds g Δ F φs) :
    List.Forall₂ (fun item (x : Item × Findings) => x.1 = item ∧
      x.2.types.length = item.exprs.length) p.items (Item.weave F p.items φs) :=
  Item.weave_items (fun d hd => (h.functions d hd).1) h.statements

/-- The check records one type for each expression of the program. -/
theorem Program.Finds.length_types {p : Program} {Δ : Environment} {F : FuncDecl → Findings}
    {φs : List Findings} (h : p.Finds g Δ F φs) :
    (Findings.concat ((Item.weave F p.items φs).map (·.2))).types.length = p.exprs.length := by
  have hitems := h.weave_items
  rw [Program.exprs_eq]
  generalize p.items = items, Item.weave F p.items φs = found at hitems
  induction hitems with
  | nil => rfl
  | cons hx _ ih =>
      simp only [Findings.concat, List.map_cons, List.flatMap_cons, List.length_append] at ih ⊢
      rw [hx.2, ih]

/-- Let natives be registered and a program be read from source text. On a new global scope the
natives are installed, the functions are declared and the program is checked without any failure.
The check meets every expression; afterwards one scope is alive, and it has the symbols that it had
before the check. -/
theorem Program.analysis_total {natives : Natives} (hn : natives.Registered) {source name : String}
    {filename : Option String} {p : Program} (hp : Program.ofSource source name filename = .ok p)
    (file : Option String) :
    let (g, a₀) := ({} : Arena).newScope none
    ∃ a₁ reports a₂, natives.install g a₀ = (.ok (), a₁) ∧
      FuncDecl.predeclareAll file g p.functions a₁ = ⟨.ok (), reports, a₂⟩ ∧
      (p.check g a₂).result = .ok () ∧ (p.check g a₂).types.size = p.exprs.length ∧
      (p.check g a₂).arena.liveCount = 1 ∧ (p.check g a₂).arena.get g = a₂.get g := by
  have hplain := Program.plain_of_ofSource hp
  obtain ⟨hstart, H⟩ := Arena.holds_start
  rw [hstart]
  obtain ⟨a₁, hinstall, H₁⟩ := hn.install H
  obtain ⟨describe, hspelled⟩ := hplain.exists_functions
  obtain ⟨a₂, hdeclare, H₂⟩ := FuncDecl.predeclareAll_eq file hspelled H₁
  obtain ⟨F, φs, hfinds⟩ := hplain.exists_finds 0 (Symbols.find? _)
  obtain ⟨a₃, H₃, hcheck⟩ := hfinds.check_eq H₂
  refine ⟨a₁, _, a₂, hinstall, hdeclare, ?_⟩
  rw [hcheck]
  refine ⟨rfl, ?_, H₃.liveCount_eq, ?_⟩
  · rw [List.size_toArray]
    exact hfinds.length_types
  · rw [Arena.get_eq_ok H₃.root, Arena.get_eq_ok H₂.root]

/-- A program with mistakes of many kinds: functions and parameters that clash, names without a
meaning, types that do not fit, and jumps out of nowhere. -/
def Program.faultySource : String :=
  "int f(int a, int a, void b) return q + f; void f() return 1; int print(int p) break; " ++
    "let v = f(true); v = -\"s\"; for i = 1.0 to v let i = !i;"

/-- The analysis of this program ends as well. -/
theorem Program.analysis_total_faulty :
    ∃ p, Program.ofSource Program.faultySource "" none = .ok p ∧
      ∃ a₁ reports a₂, Console.natives.install 0 (({} : Arena).newScope none).2 = (.ok (), a₁) ∧
        FuncDecl.predeclareAll none 0 p.functions a₁ = ⟨.ok (), reports, a₂⟩ ∧
        (p.check 0 a₂).result = .ok () ∧ (p.check 0 a₂).types.size = p.exprs.length ∧
        (p.check 0 a₂).arena.liveCount = 1 ∧ (p.check 0 a₂).arena.get 0 = a₂.get 0 := by
  obtain ⟨p, hp⟩ : ∃ p, Program.ofSource Program.faultySource "" none = .ok p :=
    exists_of_isOk (by decide +kernel)
  exact ⟨p, hp, Program.analysis_total Console.natives_registered hp none⟩

end Pigeon
