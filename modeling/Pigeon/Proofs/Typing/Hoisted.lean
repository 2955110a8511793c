import Pigeon.Proofs.Typing.Total

/-!
# Functions may stand anywhere

Two programs are *reordered* if they have the same items and the same statements in the same order,
so only the functions stand elsewhere. Where the functions have distinct names, their declaration
gives the same global symbols and the same reports up to the order. The check then finds the same at
every item.
-/

namespace Pigeon

/-- The programs have the same items, and the same statements in the same order. -/
structure Program.Reordered (p q : Program) : Prop where
  filename_eq : p.filename = q.filename
  items_perm : p.items.Perm q.items
  statements_eq : p.statements = q.statements

namespace Program.Reordered

variable {p q : Program}

/-- Programs that are reorderings of each other have the same functions, in another order. -/
theorem functions_perm (h : p.Reordered q) : p.functions.Perm q.functions := by
  rw [Program.functions_eq, Program.functions_eq]
  exact h.items_perm.filterMap Item.func?

/-- The same is found at the items of both programs. -/
theorem finds (h : p.Reordered q) {g : Handle} {Δ : Environment} {F : FuncDecl → Findings}
    {φs : List Findings} (hp : p.Finds g Δ F φs) : q.Finds g Δ F φs := by
  obtain ⟨hfunctions, hstatements⟩ := hp
  rw [h.filename_eq] at hfunctions hstatements
  rw [h.statements_eq] at hstatements
  exact ⟨fun d hd => hfunctions d (h.functions_perm.mem_iff.mpr hd), hstatements⟩

end Program.Reordered

/-! ## Findings -/

/-- There are as many findings as statements. -/
theorem Check.StmtsFind.length_eq {site : CheckSite} {Δ b : Environment} {ss : List Stmt}
    {φs : List Findings} (h : StmtsFind site Δ b ss φs) : φs.length = ss.length := by
  induction h with
  | nil => rfl
  | cons _ _ _ ih => rw [List.length_cons, List.length_cons, ih]

namespace Item

variable {F : FuncDecl → Findings} {items : List Item} {φs : List Findings}

/-- Weaving is putting the findings at the functions between those at the statements. -/
theorem weave_perm (h : φs.length = (items.filterMap Item.stmt?).length) :
    (weave F items φs).Perm ((items.filterMap Item.func?).map (fun d => (.func d, F d)) ++
      ((items.filterMap Item.stmt?).zip φs).map fun x => (.stmt x.1, x.2)) := by
  induction items generalizing φs with
  | nil => exact List.Perm.nil
  | cons item items ih =>
      cases item with
      | func d => exact (ih h).cons _
      | stmt s =>
          rw [List.filterMap_cons_some (by rfl : stmt? (.stmt s) = some s), List.length_cons] at h
          obtain ⟨φ, φs, rfl⟩ := List.exists_cons_of_length_eq_add_one h
          exact ((ih (Nat.succ.inj h)).cons _).trans List.perm_middle.symm

/-- The functions among woven items. -/
theorem filterMap_func?_weave {β : Type} (f : FuncDecl → Findings → β)
    (h : φs.length = (items.filterMap Item.stmt?).length) :
    (weave F items φs).filterMap (fun x => x.1.func?.map (f · x.2)) =
      (items.filterMap Item.func?).map fun d => f d (F d) := by
  induction items generalizing φs with
  | nil => rfl
  | cons item items ih =>
      cases item with
      | func d => exact congrArg _ (ih h)
      | stmt s =>
          rw [List.filterMap_cons_some (by rfl : stmt? (.stmt s) = some s), List.length_cons] at h
          obtain ⟨φ, φs, rfl⟩ := List.exists_cons_of_length_eq_add_one h
          exact ih (Nat.succ.inj h)

/-- The statements among woven items. -/
theorem filterMap_stmt?_weave {β : Type} (f : Stmt → Findings → β)
    (h : φs.length = (items.filterMap Item.stmt?).length) :
    (weave F items φs).filterMap (fun x => x.1.stmt?.map (f · x.2)) =
      ((items.filterMap Item.stmt?).zip φs).map fun x => f x.1 x.2 := by
  induction items generalizing φs with
  | nil => rfl
  | cons item items ih =>
      cases item with
      | func d => exact ih h
      | stmt s =>
          rw [List.filterMap_cons_some (by rfl : stmt? (.stmt s) = some s), List.length_cons] at h
          obtain ⟨φ, φs, rfl⟩ := List.exists_cons_of_length_eq_add_one h
          exact congrArg _ (ih (Nat.succ.inj h))

end Item

/-! ## Declared functions -/

/-- What is found under a name does not depend on the order, where the names are distinct. -/
theorem lookup_perm {α β : Type} {key : α → String} {value : α → β} {l l' : List α} (h : l.Perm l')
    (hnodup : (l.map key).Nodup) (k : String) :
    (l.map fun x => (key x, value x)).lookup k = (l'.map fun x => (key x, value x)).lookup k := by
  induction h with
  | nil => rfl
  | cons x _ ih =>
      rw [List.map_cons, List.map_cons, List.lookup_cons, List.lookup_cons,
        ih (List.nodup_cons.mp hnodup).2]
  | swap x y l =>
      have hne : key y ≠ key x := by
        intro heq
        exact (List.nodup_cons.mp hnodup).1 (heq ▸ List.mem_cons_self)
      simp only [List.map_cons, List.lookup_cons]
      by_cases hx : k = key x
      · rw [hx, beq_self_eq_true, beq_eq_false_iff_ne.mpr (Ne.symm hne)]
      · rw [beq_eq_false_iff_ne.mpr hx]
  | trans h₁ _ ih₁ ih₂ => exact (ih₁ hnodup).trans (ih₂ ((h₁.map key).nodup_iff.mp hnodup))

namespace Symbols

/-- A function is added under its name unless the name is taken. -/
theorem find?_addFunction (G : Symbols) (f : Function) (name : String) :
    (G.addFunction f).find? name =
      (G.find? name).or (if name = f.name then some (.func f) else none) := by
  unfold addFunction
  by_cases hname : name = f.name
  · subst hname
    cases hfind : find? G f.name with
    | none =>
        unfold find? at hfind ⊢
        simp [List.lookup_append, hfind]
    | some s => simp [hfind]
  · cases hfind : find? G f.name with
    | none =>
        unfold find?
        simp [List.lookup_append, List.lookup_cons, hname, beq_eq_false_iff_ne.mpr hname]
    | some s => simp [hname]

/-- A name that has no symbol yet gets the first function of this name. -/
theorem find?_addFunctions (G : Symbols) (fs : List Function) (name : String) :
    (G.addFunctions fs).find? name =
      (G.find? name).or ((fs.map fun f => (f.name, Symbol.func f)).lookup name) := by
  induction fs generalizing G with
  | nil => rw [List.map_nil, List.lookup_nil, Option.or_none]; rfl
  | cons f fs ih =>
      rw [addFunctions, List.foldl_cons, ← addFunctions, ih, find?_addFunction, Option.or_assoc,
        List.map_cons, List.lookup_cons]
      by_cases hname : name = f.name
      · simp [hname]
      · simp [hname, beq_eq_false_iff_ne.mpr hname]

end Symbols

namespace FuncDecl

variable {describe : FuncDecl → Function}

/-- The descriptions of functions have their names. -/
theorem map_name_describe {ds : List FuncDecl} (hds : ∀ d ∈ ds, d.toFunction = .ok (describe d)) :
    (ds.map describe).map (·.name) = ds.map (·.name) := by
  rw [List.map_map]
  exact List.map_congr_left fun d hd => (toFunction_ok (hds d hd)).1

/-- A function is reported as if it were the only one, where the names are distinct. -/
theorem reportsAll_eq (filename : Option String) {ds : List FuncDecl}
    (hds : ∀ d ∈ ds, d.toFunction = .ok (describe d)) (hnodup : (ds.map (·.name)).Nodup)
    (G : Symbols) :
    reportsAll filename describe G ds =
      ds.flatMap fun d => d.reports filename (G.find? d.name) := by
  induction ds generalizing G with
  | nil => rfl
  | cons d ds ih =>
      obtain ⟨hd, hds⟩ := List.forall_mem_cons.mp hds
      rw [List.map_cons, List.nodup_cons] at hnodup
      have hothers : ∀ e ∈ ds, e.reports filename ((G.addFunction (describe d)).find? e.name) =
          e.reports filename (G.find? e.name) := by
        intro e he
        have hne : e.name ≠ (describe d).name := by
          rw [(toFunction_ok hd).1]
          exact fun heq => hnodup.1 (heq ▸ List.mem_map_of_mem he)
        rw [Symbols.find?_addFunction, if_neg hne, Option.or_none]
      rw [reportsAll, ih hds hnodup.2, List.flatMap_cons, List.flatMap_congr hothers]

end FuncDecl

/-- The functions of reordered programs are declared with the same reports up to the order, and give
the same global symbols. -/
theorem Program.Reordered.predeclareAll {p q : Program} (h : p.Reordered q) (hp : p.Plain)
    (hnodup : (p.functions.map (·.name)).Nodup) {a : Arena} {g : Handle} {G : Symbols}
    (H : a.Holds g G []) (filename : Option String) :
    ∃ (reports reports' : List Diagnostic) (a₁ a₂ : Arena) (G₁ G₂ : Symbols),
      FuncDecl.predeclareAll filename g p.functions a = ⟨.ok (), reports, a₁⟩ ∧
      FuncDecl.predeclareAll filename g q.functions a = ⟨.ok (), reports', a₂⟩ ∧
      reports.Perm reports' ∧ a₁.Holds g G₁ [] ∧ a₂.Holds g G₂ [] ∧ G₁.find? = G₂.find? := by
  obtain ⟨describe, hspelled⟩ := hp.exists_functions
  have hperm := h.functions_perm
  have hspelled' : ∀ d ∈ q.functions, d.toFunction = .ok (describe d) :=
    fun d hd => hspelled d (hperm.mem_iff.mpr hd)
  have hnodup' : (q.functions.map (·.name)).Nodup := (hperm.map _).nodup_iff.mp hnodup
  obtain ⟨a₁, hdeclare, H₁⟩ := FuncDecl.predeclareAll_eq filename hspelled H
  obtain ⟨a₂, hdeclare', H₂⟩ := FuncDecl.predeclareAll_eq filename hspelled' H
  refine ⟨_, _, a₁, a₂, _, _, hdeclare, hdeclare', ?_, H₁, H₂, ?_⟩
  · rw [FuncDecl.reportsAll_eq filename hspelled hnodup,
      FuncDecl.reportsAll_eq filename hspelled' hnodup']
    exact hperm.flatMap_right _
  · funext name
    rw [Symbols.find?_addFunctions, Symbols.find?_addFunctions]
    rw [← FuncDecl.map_name_describe hspelled] at hnodup
    rw [lookup_perm (hperm.map describe) hnodup]

/-- The check of reordered programs reports the same up to the order. -/
theorem Program.Reordered.issues_perm {p q : Program} (h : p.Reordered q) {g : Handle}
    {Δ : Environment} {F : FuncDecl → Findings} {φs : List Findings} (hp : p.Finds g Δ F φs) :
    ((Findings.concat ((Item.weave F p.items φs).map (·.2))).diagnostics p.filename).Perm
      ((Findings.concat ((Item.weave F q.items φs).map (·.2))).diagnostics q.filename) := by
  have hlength := hp.statements.length_eq
  have hlength' := (h.finds hp).statements.length_eq
  have hweave : (Item.weave F p.items φs).Perm (Item.weave F q.items φs) := by
    refine (Item.weave_perm hlength).trans (.trans ?_ (Item.weave_perm hlength').symm)
    rw [← Program.statements_eq, ← Program.statements_eq, h.statements_eq]
    exact (h.functions_perm.map _).append_right _
  rw [h.filename_eq]
  exact ((hweave.map _).flatMap_right _).map _

end Pigeon
