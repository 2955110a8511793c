import Pigeon.Proofs.Session.Independent
import Pigeon.Proofs.Typing.Hoisted

/-!
# The place of a function makes no difference

All functions are declared before anything is checked, and only the statements are run. So two
programs that differ in the places of their functions alone are analyzed with the same reports and
the same types, and run in the same way.
-/

namespace Pigeon

/-! ## Types item by item -/

/-- Deals out what belongs to the expressions of items, in order, to each item. -/
def Item.deal {β : Type} : List Item → List β → List (Item × List β)
  | [], _ => []
  | item :: items, xs =>
    (item, xs.take item.exprs.length) :: deal items (xs.drop item.exprs.length)

/-- The types that were found at items belong to the expressions of the items. -/
theorem Item.deal_zip {items : List Item} {found : List (Item × Findings)}
    (h : List.Forall₂ (fun item (x : Item × Findings) => x.1 = item ∧
      x.2.types.length = item.exprs.length) items found) :
    Item.deal items ((items.flatMap Item.exprs).zip (found.flatMap (·.2.types))) =
      found.map fun x => (x.1, x.1.exprs.zip x.2.types) := by
  induction h with
  | nil => rfl
  | @cons item x items found hx _ ih =>
      obtain ⟨rfl, hlength⟩ := hx
      have hzip : (x.1.exprs.zip x.2.types).length = x.1.exprs.length := by
        rw [List.length_zip, hlength, Nat.min_self]
      rw [List.flatMap_cons, List.flatMap_cons, List.zip_append hlength.symm, Item.deal,
        List.take_left' hzip, List.drop_left' hzip, ih, List.map_cons]

/-- Only the statements of a program are run. -/
theorem Program.Reordered.steps_eq {p q : Program} (h : p.Reordered q) (limits : Limits) :
    p.steps limits = q.steps limits := by
  unfold Program.steps Program.runSite
  rw [h.filename_eq, h.statements_eq]

namespace Session

variable {natives : Natives} {host : Host} {p q : Program} {s t : Session}

/-- The items of the program, each with the recorded types of its expressions. -/
def typesByItem (s : Session) : List (Item × List (Expr × Option Ty)) :=
  match s.program with
  | none => []
  | some p => Item.deal p.items s.types

/-- The functions of the program, each with the recorded types of its expressions. -/
def functionTypes (s : Session) : List (FuncDecl × List (Expr × Option Ty)) :=
  s.typesByItem.filterMap fun x => x.1.func?.map (·, x.2)

/-- The statements of the program, each with the recorded types of its expressions. -/
def statementTypes (s : Session) : List (Stmt × List (Expr × Option Ty)) :=
  s.typesByItem.filterMap fun x => x.1.stmt?.map (·, x.2)

/-- Types that a first check has found, one for each expression, are recorded in this order. -/
theorem types_eq_zip (hp : s.program = some p) {found : List (Option Ty)}
    (hs : s.annotations = Annotations.overlay {} found.toArray)
    (hlength : found.length = p.exprs.length) : s.types = p.exprs.zip found := by
  unfold types
  rw [hp, hs]
  apply List.ext_getElem
  · simp [hlength]
  · intro i hi hi'
    have hfound : i < found.length := by
      rw [List.length_zip] at hi'
      omega
    simp [Annotations.get?_overlay, List.getElem?_eq_getElem hfound]

/-! ## The analysis of a program -/

/-- The stages of `load` that follow the reading of the program. -/
def analyze (p : Program) (filename : Option String) : Step Unit := do
  setProgram p
  install
  predeclare filename
  check

/-- Declaring functions that can all be declared takes the session on with the reports. -/
theorem predeclare_takes_ok {filename : Option String} {reports : List Diagnostic} {a : Arena}
    (hp : s.program = some p)
    (h : FuncDecl.predeclareAll filename s.globals p.functions s.arena = ⟨.ok (), reports, a⟩) :
    Takes (predeclare filename) s (.ok ())
      { s with program := some p, arena := a, diagnostics := s.diagnostics ++ reports } := by
  have htakes := predeclare_takes filename hp
  simp only [declared, h] at htakes
  exact htakes

/-- A check that ends takes the session on with its issues and types. -/
theorem check_takes_ok {issues : List Diagnostic} {types : Array (Option Ty)} {a : Arena}
    (hp : s.program = some p) (h : p.check s.globals s.arena = ⟨.ok (), issues, types, a⟩) :
    Takes check s (.ok ())
      { s with
        program := some p
        arena := a
        diagnostics := s.diagnostics ++ issues
        annotations := s.annotations.overlay types } := by
  have htakes := check_takes hp
  simp only [checked, h] at htakes
  exact htakes

/-- What the analysis of the program `p` leaves: the reports about its functions and the findings at
its items. The global scope shows `Δ`. -/
structure Analyzed (natives : Natives) (host : Host) (p : Program) (reports : List Diagnostic)
    (found : List (Item × Findings)) (Δ : Environment) (s : Session) : Prop where
  natives_eq : s.natives = natives
  host_eq : s.host = host
  program_eq : s.program = some p
  diagnostics_eq : s.diagnostics =
    reports ++ (Findings.concat (found.map (·.2))).diagnostics p.filename
  annotations_eq : s.annotations =
    .overlay {} (Findings.concat (found.map (·.2))).types.toArray
  holds : ∃ G, s.arena.Holds s.globals G [] ∧ G.find? = Δ

/-- The analysis takes a program through its stages. Loading a source text that is read as the
program is the same, but for the journal. -/
theorem analyze_eq {filename : Option String} {a a' : Arena} {G : Symbols}
    {reports : List Diagnostic} {F : FuncDecl → Findings} {φs : List Findings}
    (hinstall : natives.install 0 (({} : Arena).newScope none).2 = (.ok (), a))
    (hdeclare : FuncDecl.predeclareAll filename 0 p.functions a = ⟨.ok (), reports, a'⟩)
    (H : a'.Holds 0 G []) (hfinds : p.Finds 0 G.find? F φs) (host : Host)
    (context : Option LogContext) (time : String) :
    ∃ s, analyze p filename (start natives host context time) = (.ok (), s) ∧
      s.Analyzed natives host p reports (Item.weave F p.items φs) G.find? ∧
      ∀ source, Program.ofSource source unnamedSource filename = .ok p →
        ∃ j, load source filename (start natives host context time) =
          (.ok (), { s with journal := j }) := by
  obtain ⟨a'', H', hcheck⟩ := hfinds.check_eq H
  have hset : Takes (setProgram p) (start natives host context time) (.ok ())
      (installed natives host p (({} : Arena).newScope none).2) := fun j => ⟨j, rfl⟩
  have hall : Takes (analyze p filename) (start natives host context time) (.ok ()) _ :=
    hset.bind <| .bind (install_takes hinstall) <|
      .bind (predeclare_takes_ok rfl hdeclare) (check_takes_ok rfl hcheck)
  obtain ⟨j, hall⟩ := hall { context := context, time := time }
  refine ⟨_, hall, ⟨rfl, rfl, rfl, rfl, rfl, G, H', rfl⟩, fun source hsource => ?_⟩
  -- the stages are the same, with notes in between
  have hload : Takes (load source filename) (start natives host context time) (.ok ()) _ :=
    .bind (.note _) <| .bind (loadProgram_takes hsource _) <| .get fun _ => .bind (.note _) <|
      .bind (.note _) <| .bind (install_takes hinstall) <| .get fun _ => .bind (.note _) <|
        .bind (.note _) <| .bind (predeclare_takes_ok rfl hdeclare) <| .bind (.note _) <|
          .bind (check_takes_ok rfl hcheck) <| .get fun _ => .note _
  exact hload { context := context, time := time }

namespace Analyzed

variable {reports : List Diagnostic} {Δ : Environment} {F : FuncDecl → Findings}
  {φs : List Findings}

/-- After an analysis each item has the types that were found in it. -/
theorem typesByItem_eq (A : s.Analyzed natives host p reports (Item.weave F p.items φs) Δ)
    (hfinds : p.Finds 0 Δ F φs) :
    s.typesByItem =
      (Item.weave F p.items φs).map fun x => (x.1, x.1.exprs.zip x.2.types) := by
  unfold typesByItem
  rw [types_eq_zip A.program_eq A.annotations_eq hfinds.length_types, A.program_eq,
    Program.exprs_eq, ← Item.deal_zip hfinds.weave_items]
  simp [Findings.concat, List.flatMap_map]

/-- After an analysis each function has the types that were found in it, wherever it stands. -/
theorem functionTypes_eq (A : s.Analyzed natives host p reports (Item.weave F p.items φs) Δ)
    (hfinds : p.Finds 0 Δ F φs) :
    s.functionTypes = p.functions.map fun d => (d, d.body.exprs.zip (F d).types) := by
  have hweave := Item.filterMap_func?_weave (F := F)
    (fun d φ => (d, d.body.exprs.zip φ.types)) hfinds.statements.length_eq
  rw [functionTypes, A.typesByItem_eq hfinds, List.filterMap_map, Program.functions_eq, ← hweave]
  refine List.filterMap_congr fun x _ => ?_
  obtain ⟨d | s, φ⟩ := x
  · rfl
  · rfl

/-- After an analysis the statements have the types that were found in them one after another. -/
theorem statementTypes_eq (A : s.Analyzed natives host p reports (Item.weave F p.items φs) Δ)
    (hfinds : p.Finds 0 Δ F φs) :
    s.statementTypes = (p.statements.zip φs).map fun x => (x.1, x.1.exprs.zip x.2.types) := by
  have hweave := Item.filterMap_stmt?_weave (F := F)
    (fun t φ => (t, t.exprs.zip φ.types)) hfinds.statements.length_eq
  rw [statementTypes, A.typesByItem_eq hfinds, List.filterMap_map, Program.statements_eq, ← hweave]
  refine List.filterMap_congr fun x _ => ?_
  obtain ⟨d | s, φ⟩ := x
  · rfl
  · rfl

end Analyzed

/-! ## Evaluations -/

/-- How evaluations one after another end, each with the host afterwards. -/
def evaluateEach : List (Option String × Limits) → Session → List (Except Failure Unit × Host)
  | [], _ => []
  | (name, limits) :: calls, s =>
    let (r, s) := evaluate name limits s
    (r, s.host) :: evaluateEach calls s

/-- Evaluations in a row are the first one and then the others from the session after it. -/
theorem evaluateEach_cons (name : Option String) (limits : Limits)
    (calls : List (Option String × Limits)) {r : Except Failure Unit} {u : Session}
    (h : evaluate name limits s = (r, u)) :
    evaluateEach ((name, limits) :: calls) s = (r, u.host) :: evaluateEach calls u := by
  rw [evaluateEach, h]

/-- Evaluations of programs with the same steps agree, one after another. -/
theorem Stocked.evaluateEach_eq {base : Environment} (hstocks : natives.Stocks base)
    (hregular : base.Regular Eq) (hsteps : ∀ limits, p.steps limits = q.steps limits)
    (calls : List (Option String × Limits)) (S : s.Stocked natives p base)
    (T : t.Stocked natives q base) (hhost : s.host = t.host) :
    evaluateEach calls s = evaluateEach calls t := by
  induction calls generalizing s t with
  | nil => rfl
  | cons call calls ih =>
      obtain ⟨name, limits⟩ := call
      obtain ⟨r, s', t', hs, ht, hhost', S', T'⟩ :=
        S.evaluate_lockstep hstocks hregular hsteps T hhost name name limits
      rw [evaluateEach_cons name limits calls hs, evaluateEach_cons name limits calls ht, hhost',
        ih S' T' hhost']

/-- A program that is declared and checked without a report can be evaluated. -/
theorem stocks_of_quiet (hn : natives.Registered) (hp : p.Plain) {filename : Option String}
    {a a' : Arena} {G : Symbols} (H : a.Holds 0 (Symbol.named natives.symbols) [])
    (hdeclare : FuncDecl.predeclareAll filename 0 p.functions a = ⟨.ok (), [], a'⟩)
    (H' : a'.Holds 0 G []) (hcheck : (p.check 0 a').diagnostics = []) :
    natives.Stocks G.find? ∧ Environment.Regular Eq G.find? := by
  have W : p.WellTyped natives := by
    have hpre : (FuncDecl.predeclareAll filename 0 p.functions a).diagnostics = [] := by
      rw [hdeclare]
    refine Program.wellTyped_of_quiet hp H hpre fun _ => ?_
    rw [hdeclare]
    exact hcheck
  obtain ⟨fs, hfs, -⟩ := W.describe
  obtain ⟨a₁, hdeclare₁, H₁⟩ := W.predeclareAll hfs H filename
  obtain rfl : a₁ = a' := congrArg Predeclared.arena (hdeclare₁.symm.trans hdeclare)
  obtain rfl : G = Program.globalSymbols natives fs := by
    have hroot := H'.root.symm.trans H₁.root
    simpa using hroot
  refine ⟨Program.stocks_globalSymbols hn fs, ?_⟩
  have hserves := Setting.serves_globalSymbols (w := ⟨false, natives, p, 0⟩) hn W hfs
  exact hserves.regular fun n _ => n.callback.respects_eq

/-! ## Reordered programs -/

/-- Let natives be registered, and let two plain programs differ in the places of their functions
alone, which have distinct names. Both are analyzed without a failure. They have the same
diagnostics up to the order, and the same recorded types at each function and at each statement. If
there are no diagnostics, then any evaluations of the one program end as those of the other do, and
leave the same host with the same output. For a program that was read, the analysis is what loading
it does. -/
theorem analysis_reordered (hn : natives.Registered) (hp : p.Plain) (h : p.Reordered q)
    (hnodup : (p.functions.map (·.name)).Nodup) (filename : Option String) (host : Host)
    (context : Option LogContext) (time : String) :
    ∃ s t, analyze p filename (start natives host context time) = (.ok (), s) ∧
      analyze q filename (start natives host context time) = (.ok (), t) ∧
      s.diagnostics.Perm t.diagnostics ∧ s.functionTypes.Perm t.functionTypes ∧
      s.statementTypes = t.statementTypes ∧
      (s.diagnostics = [] → ∀ calls, evaluateEach calls s = evaluateEach calls t) ∧
      ∀ source, Program.ofSource source unnamedSource filename = .ok p →
        ∃ j, load source filename (start natives host context time) =
          (.ok (), { s with journal := j }) := by
  obtain ⟨-, H₀⟩ := Arena.holds_start
  obtain ⟨a, hinstall, H⟩ := hn.install H₀
  obtain ⟨reports, reports', a₁, a₂, G₁, G₂, hdeclare, hdeclare', hreports, H₁, H₂, hG⟩ :=
    h.predeclareAll hp hnodup H filename
  -- the global symbols are in another order, but found by name alike, so the finds are shared
  obtain ⟨F, φs, hfinds⟩ := hp.exists_finds 0 G₁.find?
  have hfinds' : q.Finds 0 G₂.find? F φs := hG ▸ h.finds hfinds
  obtain ⟨s, hs, A, hload⟩ := analyze_eq hinstall hdeclare H₁ hfinds host context time
  obtain ⟨t, ht, B, -⟩ := analyze_eq hinstall hdeclare' H₂ hfinds' host context time
  have hperm : s.diagnostics.Perm t.diagnostics := by
    rw [A.diagnostics_eq, B.diagnostics_eq]
    exact hreports.append (h.issues_perm hfinds)
  refine ⟨s, t, hs, ht, hperm, ?_, ?_, fun hclean calls => ?_, hload⟩
  · rw [A.functionTypes_eq hfinds, B.functionTypes_eq hfinds']
    exact h.functions_perm.map _
  · rw [A.statementTypes_eq hfinds, B.statementTypes_eq hfinds', h.statements_eq]
  · obtain ⟨rfl, hissues⟩ := List.append_eq_nil_iff.mp (A.diagnostics_eq.symm.trans hclean)
    obtain ⟨_, -, hcheck⟩ := hfinds.check_eq H₁
    have hquiet : (p.check 0 a₁).diagnostics = [] :=
      (congrArg Checked.diagnostics hcheck).trans hissues
    obtain ⟨hstocks, hregular⟩ := stocks_of_quiet hn hp H hdeclare H₁ hquiet
    have hclean' : t.diagnostics = [] := (hclean ▸ hperm).nil_eq.symm
    obtain ⟨G, HG, hfind⟩ := A.holds
    obtain ⟨G', HG', hfind'⟩ := B.holds
    have S : s.Stocked natives p G₁.find? :=
      ⟨A.natives_eq, A.program_eq, hclean, G, HG, hfind ▸ .refl _⟩
    have T : t.Stocked natives q G₁.find? :=
      ⟨B.natives_eq, B.program_eq, hclean', G', HG', hfind' ▸ hG ▸ .refl _⟩
    exact S.evaluateEach_eq hstocks hregular h.steps_eq calls T (A.host_eq.trans B.host_eq.symm)

/-- A function that passes a number on to another one, unless it is zero. -/
def passing (name other : String) (atZero : Bool) : FuncDecl where
  name := name
  params := [⟨"n", "int", none⟩]
  returnType := "bool"
  body := .mk [.ifThen (.binary .eq (.var "n" none) (.int 0 none) none)
      (.mk [.ret (some (.bool atZero none)) none] false none) none,
    .ret (some (.call other [.binary .sub (.var "n" none) (.int 1 none) none] none)) none] true none
  span := none

theorem passing_plain (name other : String) (atZero : Bool) :
    (passing name other atZero).Plain := by
  refine ⟨⟨⟨name, .bool, [⟨"n", .int⟩], .declared (passing name other atZero).body⟩, rfl⟩, ?_⟩
  simp [passing, Block.Plain, Stmt.PlainAll, Stmt.Plain, Expr.Plain, Expr.PlainAll, BinOp.Plain]

/-- A call that shows whether a number is even. -/
def showEven : Stmt := .call (.call "print" [.call "even" [.int 3 none] none] none) none

/-- Two functions that call each other, one in front of the call and one behind it. -/
def aroundCall : Program :=
  ⟨[.func (passing "even" "odd" true), .stmt showEven, .func (passing "odd" "even" false)],
    none, none⟩

/-- The same functions behind the call, in the other order. -/
def behindCall : Program :=
  ⟨[.stmt showEven, .func (passing "odd" "even" false), .func (passing "even" "odd" true)],
    none, none⟩

/-- Functions that call each other are found wherever they stand. -/
theorem analysis_reordered_mutual :
    ∃ s t, analyze aroundCall none (start Console.natives {} none "") = (.ok (), s) ∧
      analyze behindCall none (start Console.natives {} none "") = (.ok (), t) ∧
      s.diagnostics = [] ∧ s.functionTypes.Perm t.functionTypes ∧
      s.statementTypes = t.statementTypes ∧
      ∀ calls, evaluateEach calls s = evaluateEach calls t := by
  have hplain : aroundCall.Plain := by
    have hcall : showEven.Plain := by simp [showEven, Stmt.Plain, Expr.Plain, Expr.PlainAll]
    intro item hitem
    simp only [aroundCall, List.mem_cons, List.not_mem_nil, or_false] at hitem
    rcases hitem with rfl | rfl | rfl
    · exact passing_plain _ _ _
    · exact hcall
    · exact passing_plain _ _ _
  have hperm : aroundCall.items.Perm behindCall.items :=
    (List.perm_append_singleton (Item.func (passing "even" "odd" true))
      [.stmt showEven, .func (passing "odd" "even" false)]).symm
  have hreordered : aroundCall.Reordered behindCall := ⟨rfl, hperm, rfl⟩
  have hquiet : (analyze aroundCall none (start Console.natives {} none "")).2.diagnostics.isEmpty =
      true := by decide +kernel
  obtain ⟨s, t, hs, ht, -, hfunctions, hstatements, hevaluate, -⟩ :=
    analysis_reordered Console.natives_registered hplain hreordered (by decide) none {} none ""
  have hclean : s.diagnostics = [] := by
    rw [hs] at hquiet
    exact List.isEmpty_iff.mp hquiet
  exact ⟨s, t, hs, ht, hclean, hfunctions, hstatements, hevaluate hclean⟩

end Session

end Pigeon
