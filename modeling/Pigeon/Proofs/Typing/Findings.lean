import Pigeon.Proofs.Scope.Refine
import Pigeon.Proofs.Tree.Plain
import Pigeon.Proofs.Typing.Quiet
import Pigeon.Proofs.Typing.Standing

/-!
# What the checker finds

However ill-typed a plain program is, its check ends without a failure. What a step of the check
reports and records depends only on the symbols that it sees: the global ones and those of the
blocks of the current frame (`Check.Finds`). Where their scopes lie in the arena, which frames are
below the current one and what was found before makes no difference.

The global symbols are left alone, and so are the blocks around the innermost one. The check of a
function takes place in a frame of its own, so what it finds is the same at every place of a
program.
-/

namespace Pigeon

open Blocks

/-- What a step of the checker reports, each issue with the text that it is about, and the types
that it records. -/
structure Findings where
  issues : List (Option Span × Issue) := []
  types : List (Option Ty) := []

namespace Findings

instance : Append Findings := ⟨fun φ ψ => ⟨φ.issues ++ ψ.issues, φ.types ++ ψ.types⟩⟩

/-- The reports as diagnostics about a file. -/
def diagnostics (filename : Option String) (φ : Findings) : List Diagnostic :=
  φ.issues.map fun (sp, issue) => issue.diagnostic filename sp

/-- The diagnostics of findings in a row are those of the first and then those of the second. -/
theorem diagnostics_append (filename : Option String) (φ ψ : Findings) :
    (φ ++ ψ).diagnostics filename = φ.diagnostics filename ++ ψ.diagnostics filename :=
  List.map_append

/-- Findings in a row record as many types as the two together. -/
theorem length_types_append (φ ψ : Findings) :
    (φ ++ ψ).types.length = φ.types.length + ψ.types.length :=
  List.length_append

end Findings

/-- The arena of the checker holds the global symbols `G`, the blocks `f` of the current frame, and
those of the frames `F` below it, and nothing else. -/
structure Checker.Lies (c : Checker) (g : Handle) (G : Symbols) (f : Blocks) (F : List Blocks) :
    Prop where
  holds : c.arena.Holds g G (f :: F)
  frame_eq : c.frame = ⟨g, handles f⟩

/-! ## Names -/

/-- A name is resolved to a variable, or there is a reason other than a repeated declaration. -/
theorem Nest.resolveVariable_cases (Δ : Environment) {bs : List Environment} (hbs : bs ≠ [])
    (name : String) :
    (∃ v, Nest.resolveVariable Δ bs name = .ok v) ∨
      ∃ e, Nest.resolveVariable Δ bs name = .error (.scope e) ∧
        e.kind ≠ .duplicateDeclaration := by
  obtain ⟨b, bs, rfl⟩ := List.exists_cons_of_ne_nil hbs
  unfold Nest.resolveVariable Nest.resolve
  rcases Nest.find? Δ name (b :: bs) with _ | (v | f)
  · exact Or.inr ⟨.unknown name, rfl, nofun⟩
  · exact Or.inl ⟨v, rfl⟩
  · exact Or.inr ⟨.notAVariable name, rfl, nofun⟩

/-- A name can be assigned, or there is a reason other than a repeated declaration. -/
theorem Nest.checkAssignable_cases (Δ : Environment) {bs : List Environment} (hbs : bs ≠ [])
    (name : String) :
    (∃ v, Nest.checkAssignable Δ bs name = .ok v) ∨
      ∃ e, Nest.checkAssignable Δ bs name = .error (.scope e) ∧
        e.kind ≠ .duplicateDeclaration := by
  unfold Nest.checkAssignable
  rcases Nest.resolveVariable_cases Δ hbs name with ⟨v, hv⟩ | ⟨e, he, hkind⟩
  · rw [hv]
    by_cases hro : v.readOnly = true
    · exact Or.inr ⟨.readOnly name, by simp [hro, bind, Except.bind]; rfl, nofun⟩
    · exact Or.inl ⟨v, by simp [hro, bind, Except.bind, pure, Except.pure]⟩
  · rw [he]
    exact Or.inr ⟨e, rfl, hkind⟩

namespace Check

variable {α β : Type}

/-- Whenever the checker sees the global symbols `Δ` and the symbols `bs` of the blocks of its
frame, the step ends with `a`, finds `φ`, and leaves blocks with the symbols `bs'`. -/
def Finds (filename : Option String) (g : Handle) (Δ : Environment) (bs : List Environment)
    (x : Check α) (a : α) (φ : Findings) (bs' : List Environment) : Prop :=
  ∀ ⦃c : Checker⦄ ⦃G : Symbols⦄ ⦃f : Blocks⦄ ⦃F : List Blocks⦄,
    c.Lies g G f F → G.find? = Δ → f.environments = bs → ∃ t f', x c = (.ok a, t) ∧
      t.Lies g G f' F ∧ f'.environments = bs' ∧
      t.diagnostics = c.diagnostics ++ φ.diagnostics filename ∧
      t.types.toList = c.types.toList ++ φ.types

/-- The step ends, always in the same way. It records `n` types, and the symbols of the blocks are
afterwards as `E` says. -/
def Ends (filename : Option String) (g : Handle) (Δ : Environment) (bs : List Environment)
    (x : Check α) (n : Nat) (E : List Environment → Prop) : Prop :=
  ∃ a φ bs', Finds filename g Δ bs x a φ bs' ∧ φ.types.length = n ∧ E bs'

/-- The blocks around the innermost one are the same. -/
def Outer (bs bs' : List Environment) : Prop := ∃ b, bs' = b :: bs.tail

/-- The blocks around the innermost one are the same where nothing has changed. -/
theorem Outer.refl {bs : List Environment} (hbs : bs ≠ []) : Outer bs bs := by
  obtain ⟨b, bs, rfl⟩ := List.exists_cons_of_ne_nil hbs
  exact ⟨b, rfl⟩

/-- The outer blocks stay the same over two changes if each leaves them alone. -/
theorem Outer.trans {bs bs₁ bs₂ : List Environment} (h : Outer bs bs₁) (h' : Outer bs₁ bs₂) :
    Outer bs bs₂ := by
  obtain ⟨b, rfl⟩ := h
  exact h'

/-- There is an innermost block after a change that leaves the outer ones alone. -/
theorem Outer.ne_nil {bs bs' : List Environment} (h : Outer bs bs') : bs' ≠ [] := by
  obtain ⟨b, rfl⟩ := h
  exact List.cons_ne_nil _ _

variable {filename : Option String} {g : Handle} {Δ : Environment} {bs bs₁ bs₂ : List Environment}
  {n m : Nat} {E E' : List Environment → Prop}

/-! ## Rules for composed steps -/

/-- A step that gives a value finds nothing. -/
theorem Finds.pure (a : α) : Finds filename g Δ bs (pure a) a {} bs := by
  intro c G f F L _ hbs
  exact ⟨c, f, rfl, L, hbs, (List.append_nil _).symm, (List.append_nil _).symm⟩

/-- Two steps in a row find what the first one finds and then what the second one finds from there.
-/
theorem Finds.bind {x : Check α} {k : α → Check β} {a : α} {b : β} {φ ψ : Findings}
    (hx : Finds filename g Δ bs x a φ bs₁) (hk : Finds filename g Δ bs₁ (k a) b ψ bs₂) :
    Finds filename g Δ bs (x >>= k) b (φ ++ ψ) bs₂ := by
  intro c G f F L hΔ hbs
  obtain ⟨t, f₁, heq, L₁, hbs₁, hd, htypes⟩ := hx L hΔ hbs
  obtain ⟨u, f₂, heq', L₂, hbs₂, hd', htypes'⟩ := hk L₁ hΔ hbs₁
  refine ⟨u, f₂, ?_, L₂, hbs₂, ?_, ?_⟩
  · rw [Step.bind_ok heq, heq']
  · rw [hd', hd, Findings.diagnostics_append, List.append_assoc]
  · rw [htypes', htypes, List.append_assoc]
    rfl

namespace Ends

/-- A step that gives a value ends, records no type and leaves the blocks alone. -/
theorem pure (a : α) : Ends filename g Δ bs (pure a) 0 (· = bs) :=
  ⟨a, {}, bs, .pure a, rfl, rfl⟩

/-- What is known of the blocks afterwards may be weakened. -/
theorem mono {x : Check α} (h : Ends filename g Δ bs x n E) (hE : ∀ bs', E bs' → E' bs') :
    Ends filename g Δ bs x n E' := by
  obtain ⟨a, φ, bs', hx, hn, hE'⟩ := h
  exact ⟨a, φ, bs', hx, hn, hE bs' hE'⟩

/-- A step that leaves all blocks alone leaves the outer ones alone. -/
theorem outer {x : Check α} (h : Ends filename g Δ bs x n (· = bs)) (hbs : bs ≠ []) :
    Ends filename g Δ bs x n (Outer bs) := by
  refine h.mono ?_
  rintro _ rfl
  exact Outer.refl hbs

/-- The number of types may be written in another way. -/
theorem count {x : Check α} (h : Ends filename g Δ bs x n E) (hn : n = m) :
    Ends filename g Δ bs x m E := hn ▸ h

/-- Two steps in a row end and record the types of both, if the second one ends from all blocks that
the first one may leave. -/
theorem bind {x : Check α} {k : α → Check β} (hx : Ends filename g Δ bs x n E)
    (hk : ∀ a bs₁, E bs₁ → Ends filename g Δ bs₁ (k a) m E') :
    Ends filename g Δ bs (x >>= k) (n + m) E' := by
  obtain ⟨a, φ, bs₁, hx, rfl, hE⟩ := hx
  obtain ⟨b, ψ, bs₂, hrest, rfl, hE'⟩ := hk a bs₁ hE
  exact ⟨b, φ ++ ψ, bs₂, hx.bind hrest, Findings.length_types_append φ ψ, hE'⟩

/-- A step after one that leaves all blocks alone. -/
theorem seq {x : Check α} {k : α → Check β} (hx : Ends filename g Δ bs x n (· = bs))
    (hk : ∀ a, Ends filename g Δ bs (k a) m E) : Ends filename g Δ bs (x >>= k) (n + m) E := by
  refine hx.bind ?_
  rintro a _ rfl
  exact hk a

/-- A step that first reads the state, of which only the symbols make a difference. -/
theorem read {k : Checker → Check α} {x : Check α}
    (hk : ∀ ⦃c : Checker⦄ ⦃G : Symbols⦄ ⦃f : Blocks⦄ ⦃F : List Blocks⦄, c.Lies g G f F →
      G.find? = Δ → f.environments = bs → k c = x)
    (hx : Ends filename g Δ bs x n E) : Ends filename g Δ bs (get >>= k) n E := by
  obtain ⟨a, φ, bs', hx, hn, hE⟩ := hx
  refine ⟨a, φ, bs', ?_, hn, hE⟩
  intro c G f F L hΔ hbs
  rw [Step.bind_ok (Step.get_apply c), hk L hΔ hbs]
  exact hx L hΔ hbs

end Ends

/-- A report ends and records no type. -/
theorem report_ends (site : CheckSite) (sp : Option Span) (issue : Issue) :
    Ends site.filename g Δ bs (report site sp issue) 0 (· = bs) := by
  refine ⟨(), ⟨[(sp, issue)], []⟩, bs, ?_, rfl, rfl⟩
  intro c G f F L _ hbs
  exact ⟨_, f, rfl, ⟨L.holds, L.frame_eq⟩, hbs, rfl, (List.append_nil _).symm⟩

/-- A report that is made under some condition. -/
theorem ite_report_ends (p : Prop) [Decidable p] (site : CheckSite) (sp : Option Span)
    (issue : Issue) :
    Ends site.filename g Δ bs (if p then report site sp issue else pure ()) 0 (· = bs) := by
  split
  · exact report_ends site sp issue
  · exact .pure ()

/-! ## Entries, blocks and frames -/

/-- The entry of an expression is filled once its type is found. -/
theorem annotated_ends {x : Check (Option Ty)} (hx : Ends filename g Δ bs x n E) :
    Ends filename g Δ bs (annotated x) (n + 1) E := by
  obtain ⟨a, φ, bs', hx, rfl, hE⟩ := hx
  refine ⟨a, ⟨φ.issues, a :: φ.types⟩, bs', ?_, rfl, hE⟩
  intro c G f F L hΔ hbs
  have hreserve : reserve c = (.ok c.types.size, { c with types := c.types.push none }) := rfl
  obtain ⟨t, f', heq, L', hbs', hd, htypes⟩ :=
    hx (c := { c with types := c.types.push none }) ⟨L.holds, L.frame_eq⟩ hΔ hbs
  refine ⟨{ t with types := t.types.setIfInBounds c.types.size a }, f', ?_,
    ⟨L'.holds, L'.frame_eq⟩, hbs', hd, ?_⟩
  · unfold annotated
    rw [Step.bind_ok hreserve, Step.bind_ok heq]
    rfl
  · rw [Array.toList_setIfInBounds, htypes]
    simp

/-- A frame takes a name that its innermost block does not have. -/
theorem declare_new {c : Checker} {G : Symbols} {h : Handle} {b : Symbols} {f : Blocks}
    {F : List Blocks} (L : c.Lies g G ((h, b) :: f) F) {v : Variable}
    (hnew : b.find? v.name = none) :
    c.frame.declare c.arena v = .ok (c.arena.store h v.name (.var v)) ∧
      Checker.Lies { c with arena := c.arena.store h v.name (.var v) } g G
        ((h, b.insert v.name (.var v)) :: f) F ∧
      environments ((h, b.insert v.name (.var v)) :: f) =
        Function.update b.find? v.name (some (.var v)) :: environments f := by
  have hblocks : c.frame.blocks = handles ((h, b) :: f) := congrArg Frame.blocks L.frame_eq
  have hcheck := Frame.checkDeclarable_eq hblocks L.holds v.name
  rw [(Symbols.contains_eq_false_iff b v.name).mpr hnew] at hcheck
  refine ⟨?_, ⟨L.holds.store_top v.name (.var v), L.frame_eq⟩, ?_⟩
  · rw [Frame.declare, hcheck]
    rfl
  · rw [environments_cons, Symbols.find?_insert_eq_update]

/-- A variable is declared in the innermost block, unless its name is taken there. -/
theorem declare_ends (v : Variable) (hbs : bs ≠ []) :
    Ends filename g Δ bs (declare v) 0 (Outer bs) := by
  obtain ⟨e, bs, rfl⟩ := List.exists_cons_of_ne_nil hbs
  cases he : e v.name with
  | some s =>
      refine ⟨false, {}, e :: bs, ?_, rfl, e, rfl⟩
      intro c G f F L _ hf
      obtain ⟨⟨h, b⟩, f, rfl, rfl, rfl⟩ := List.map_eq_cons_iff.mp hf
      refine ⟨c, (h, b) :: f, ?_, L, rfl, (List.append_nil _).symm, (List.append_nil _).symm⟩
      have hblocks : c.frame.blocks = handles ((h, b) :: f) := congrArg Frame.blocks L.frame_eq
      have hcheck := Frame.checkDeclarable_eq hblocks L.holds v.name
      rw [if_pos ((Symbols.contains_iff b v.name).mpr ⟨s, he⟩)] at hcheck
      unfold declare
      rw [Step.bind_ok (Step.get_apply c), Frame.declare, hcheck]
      rfl
  | none =>
      refine ⟨true, {}, Function.update e v.name (some (.var v)) :: bs, ?_, rfl, _, rfl⟩
      intro c G f F L _ hf
      obtain ⟨⟨h, b⟩, f, rfl, rfl, rfl⟩ := List.map_eq_cons_iff.mp hf
      obtain ⟨heq, L', hbs⟩ := declare_new L he
      refine ⟨_, _, ?_, L', hbs, (List.append_nil _).symm, (List.append_nil _).symm⟩
      unfold declare
      rw [Step.bind_ok (Step.get_apply c), heq]
      rfl

/-- The counter of a loop is declared in the new block of the loop. -/
theorem declareCounter_ends (name : String) :
    Ends filename g Δ (.empty :: bs) (declareCounter name) 0 (Outer (.empty :: bs)) := by
  let v : Variable := { name := name, ty := some .int }
  refine ⟨(), {}, Function.update Environment.empty name (some (.var v)) :: bs, ?_, rfl, _, rfl⟩
  intro c G f F L _ hf
  obtain ⟨⟨h, b⟩, f, rfl, hb, rfl⟩ := List.map_eq_cons_iff.mp hf
  obtain ⟨heq, L', hbs⟩ := declare_new L (v := v) (congrFun hb name)
  refine ⟨_, _, ?_, L', ?_, (List.append_nil _).symm, (List.append_nil _).symm⟩
  · unfold declareCounter
    rw [Step.bind_ok (Step.get_apply c), heq]
    rfl
  · rw [hbs, show b.find? = Environment.empty from hb]
    rfl

/-- A step in a block of its own, which is gone afterwards. -/
theorem inBlock_ends {x : Check α} (hbs : bs ≠ [])
    (hx : Ends filename g Δ (.empty :: bs) x n (Outer (.empty :: bs))) :
    Ends filename g Δ bs (inBlock x) n (· = bs) := by
  obtain ⟨a, φ, _, hx, hn, b, rfl⟩ := hx
  refine ⟨a, φ, bs, ?_, hn, rfl⟩
  intro c G f F L hΔ hf
  have hne : f ≠ [] := by
    rintro rfl
    exact hbs hf.symm
  have hblocks : c.frame.blocks = handles f := congrArg Frame.blocks L.frame_eq
  -- the new block is empty
  let c₁ : Checker := { c with
    frame := { c.frame with blocks := (c.arena.newScope (some (top g f))).1 :: c.frame.blocks }
    arena := (c.arena.newScope (some (top g f))).2 }
  have henter : enter c = (.ok (), c₁) := by
    unfold enter
    rw [Step.bind_ok (Step.get_apply c), Frame.enter_eq (g := g) hblocks hne]
    rfl
  have L₁ : c₁.Lies g G (((c.arena.newScope (some (top g f))).1, []) :: f) F :=
    ⟨L.holds.newScope, by simp only [c₁, L.frame_eq, handles_cons]⟩
  obtain ⟨t, f', heq, L', hf', hd, htypes⟩ := hx L₁ hΔ (by rw [environments_cons, hf]; rfl)
  -- the step has left it innermost
  obtain ⟨⟨h, b'⟩, f', rfl, -, hrest⟩ := List.map_eq_cons_iff.mp hf'
  have hne' : f' ≠ [] := by
    rintro rfl
    exact hbs hrest.symm
  have hexit : exit t =
      (.ok (), { t with frame := ⟨g, handles f'⟩, arena := t.arena.vacate h }) := by
    unfold exit
    rw [Step.bind_ok (Step.get_apply t),
      Frame.exit_eq (congrArg Frame.blocks L'.frame_eq) hne' L'.holds]
    simp only [L'.frame_eq]
    rfl
  refine ⟨{ t with frame := ⟨g, handles f'⟩, arena := t.arena.vacate h }, f', ?_,
    ⟨L'.holds.vacate.2, rfl⟩, hrest, hd, htypes⟩
  unfold inBlock andFinally
  rw [Step.bind_ok henter]
  simp only [heq, hexit]

/-- A step in a frame of its own finds the same wherever it takes place. -/
theorem inFrame_finds {x : Check α} (hx : Ends filename g Δ [.empty] x n E) :
    ∃ a φ, φ.types.length = n ∧ ∀ bs, Finds filename g Δ bs (inFrame g x) a φ bs := by
  obtain ⟨a, φ, bs', hx, hn, -⟩ := hx
  refine ⟨a, φ, hn, fun bs => ?_⟩
  intro c G f F L hΔ hf
  obtain ⟨h, arena, hopen, -, hnew⟩ := Frame.openIn_eq L.holds
  let c₁ : Checker := { c with frame := ⟨g, [h]⟩, arena := arena }
  have hopened : openFrame g c = (.ok c.frame, c₁) := by
    rw [openFrame, Step.modifyGet_apply, hopen]
  have L₁ : c₁.Lies g G [(h, [])] (f :: F) := ⟨hnew, rfl⟩
  obtain ⟨t, f', heq, L', -, hd, htypes⟩ := hx L₁ hΔ rfl
  obtain ⟨arena', hclose, H⟩ := close_eq (congrArg Frame.blocks L'.frame_eq) L'.holds
  have hclean : (do close; modify fun s => { s with frame := c.frame } : Check Unit) t =
      (.ok (), { t with frame := c.frame, arena := arena' }) := by
    rw [Step.bind_ok hclose]
    rfl
  refine ⟨{ t with frame := c.frame, arena := arena' }, f, ?_, ⟨H, L.frame_eq⟩, hf, hd, htypes⟩
  unfold inFrame andFinally
  rw [Step.bind_ok hopened]
  simp only [heq, hclean]

/-! ## Expressions -/

/-- A name that is found or has a reason not to be found ends with the report of that reason. Only a
repeated declaration is no such reason. -/
theorem orReport_ends (site : CheckSite) (sp : Option Span) (issue : ScopeError → Issue)
    {found : Except Failure Variable} (h : (∃ v, found = .ok v) ∨
      ∃ e, found = .error (.scope e) ∧ e.kind ≠ .duplicateDeclaration) :
    Ends site.filename g Δ bs (orReport site sp issue found) 0 (· = bs) := by
  rcases h with ⟨v, rfl⟩ | ⟨e, rfl, hkind⟩
  · exact .pure _
  · unfold orReport
    dsimp only
    split
    · next h => exact absurd h hkind
    · exact (report_ends site sp _).seq fun _ => .pure _

/-- Typing a name ends, as every reason for which a name is not found is reported. -/
theorem variableType_ends (site : CheckSite) (name : String) (sp : Option Span) (hbs : bs ≠ []) :
    Ends site.filename site.globals Δ bs (variableType site name sp) 0 (· = bs) := by
  refine .read (fun c G f F L hΔ hf => ?_)
    ((orReport_ends site sp .unresolved (Nest.resolveVariable_cases Δ hbs name)).seq fun v =>
      .pure (v.bind (·.ty)))
  rw [L.frame_eq, Frame.resolveVariable_eq_nested L.holds, hΔ, hf]

/-- Typing a unary operation ends, since a plain operator has a meaning on every type. -/
theorem unaryType_ends (site : CheckSite) {op : UnOp} (hop : op.Plain) (t : Option Ty)
    (sp : Option Span) : Ends site.filename g Δ bs (unaryType site op t sp) 0 (· = bs) := by
  unfold unaryType
  cases t with
  | none => exact .pure _
  | some t =>
      obtain ⟨r, hr⟩ := hop.result_ok t
      simp only [hr, ofOperator, pure_bind]
      cases r with
      | none => exact (report_ends site sp _).seq fun _ => .pure _
      | some r => exact .pure _

/-- Typing a binary operation ends, since a plain operator has a meaning on all types. -/
theorem binaryType_ends (site : CheckSite) {op : BinOp} (hop : op.Plain) (l r : Option Ty)
    (sp : Option Span) : Ends site.filename g Δ bs (binaryType site op l r sp) 0 (· = bs) := by
  unfold binaryType
  cases l with
  | none => exact .pure _
  | some l =>
      cases r with
      | none => exact .pure _
      | some r =>
          dsimp only
          split
          · exact (report_ends site sp _).seq fun _ => .pure _
          · obtain ⟨t, ht⟩ := hop.result_ok l r
            simp only [ht, ofOperator, pure_bind]
            cases t with
            | none => exact (report_ends site sp _).seq fun _ => .pure _
            | some t => exact .pure _

/-- Checking a condition ends and records no type of its own. -/
theorem checkCondition_ends (site : CheckSite) (place : ConditionPlace) (found : Option Ty)
    (sp : Option Span) :
    Ends site.filename g Δ bs (checkCondition site place found sp) 0 (· = bs) := by
  unfold checkCondition
  split
  · exact .pure _
  · exact .pure _
  · exact report_ends site sp _

/-- Checking an argument ends and records no type of its own. -/
theorem checkArgument_ends (site : CheckSite) (function : String) (i : Nat)
    (param : Option Parameter) (sp : Option Span) (found : Option Ty) :
    Ends site.filename g Δ bs (checkArgument site function i param sp found) 0 (· = bs) := by
  cases found with
  | none => exact .pure _
  | some t =>
      unfold checkArgument
      dsimp only
      split
      · exact report_ends site sp _
      · split
        · exact .pure _
        · split
          · exact .pure _
          · exact report_ends site sp _

/-- Checking the arguments of a call ends, by induction on the arguments. -/
theorem checkArguments_ends (site : CheckSite) (function : String)
    (args : List (Option Span × Option Ty)) (i : Nat) (params : List Parameter) :
    Ends site.filename g Δ bs (checkArguments site function i params args) 0 (· = bs) := by
  induction args generalizing i params with
  | nil => exact .pure _
  | cons arg args ih =>
      obtain ⟨sp, found⟩ := arg
      rw [checkArguments_cons]
      exact (checkArgument_ends site function i _ sp found).seq fun _ => ih (i + 1) params.tail

/-- Typing a call ends, whether its name is that of a function or not. -/
theorem callType_ends (site : CheckSite) (name : String) (args : List (Option Span × Option Ty))
    (sp : Option Span) :
    Ends site.filename site.globals Δ bs (callType site name args sp) 0 (· = bs) := by
  rcases hname : Δ name with _ | (v | f)
  · refine .read (fun c G f F L hΔ _ => ?_)
      ((report_ends site sp (.unknownFunction name)).seq fun _ => .pure none)
    rw [L.holds.global?, hΔ, hname]
  · refine .read (fun c G f F L hΔ _ => ?_)
      ((report_ends site sp (.notCallable name)).seq fun _ => .pure none)
    rw [L.holds.global?, hΔ, hname]
  · have hargs : Ends site.filename site.globals Δ bs (checkArguments site name 0 f.params args >>=
        fun _ => pure (some f.returns)) (0 + 0) (· = bs) :=
      (checkArguments_ends site name args 0 f.params).seq fun _ => .pure _
    by_cases hcount : f.params.length ≠ args.length
    · refine .read (fun c G _ F L hΔ _ => ?_) ((report_ends site sp
        (.argumentCount name f.params.length args.length)).seq fun _ => hargs)
      rw [L.holds.global?, hΔ, hname]
      exact if_pos hcount
    · refine .read (fun c G _ F L hΔ _ => ?_) hargs
      rw [L.holds.global?, hΔ, hname]
      exact if_neg hcount

mutual

/-- The check of a plain expression ends, and records a type for each expression inside it. -/
theorem infer_ends (site : CheckSite) (hbs : bs ≠ []) :
    ∀ e : Expr, e.Plain →
      Ends site.filename site.globals Δ bs (infer site e) e.preorder.length (· = bs)
  | .int _ _, _ => annotated_ends (.pure _)
  | .float _ _, _ => annotated_ends (.pure _)
  | .string _ _, _ => annotated_ends (.pure _)
  | .bool _ _, _ => annotated_ends (.pure _)
  | .var name sp, _ => annotated_ends (variableType_ends site name sp hbs)
  | .paren inner _, h => annotated_ends (infer_ends site hbs inner h)
  | .unary _ operand sp, h =>
    annotated_ends ((infer_ends site hbs operand h.2).seq fun t => unaryType_ends site h.1 t sp)
  | .binary op left right sp, h => by
      have hboth := (infer_ends site hbs left h.2.1).seq fun l =>
        (infer_ends site hbs right h.2.2).seq fun r => binaryType_ends site h.1 l r sp
      refine (annotated_ends hboth).count ?_
      simp only [Expr.preorder, List.length_append, List.length_cons]
      omega
  | .ternary cond yes no sp, h => by
      have hall := (infer_ends site hbs cond h.1).seq fun c =>
        (checkCondition_ends site .ternaryCondition c cond.span).seq fun _ =>
          (infer_ends site hbs yes h.2.1).seq fun y => (infer_ends site hbs no h.2.2).seq fun n =>
            .pure (y.or n)
      refine (annotated_ends hall).count ?_
      simp only [Expr.preorder, List.length_append, List.length_cons]
      omega
  | .call name args sp, h =>
    annotated_ends ((inferAll_ends site hbs args h).seq fun types =>
      callType_ends site name types sp)
  | .other _ _ _, h => h.elim

/-- Typing a list of plain expressions ends with one type for each of their nodes. -/
theorem inferAll_ends (site : CheckSite) (hbs : bs ≠ []) :
    ∀ es : List Expr, Expr.PlainAll es →
      Ends site.filename site.globals Δ bs (inferAll site es) (Expr.preorderAll es).length (· = bs)
  | [], _ => .pure _
  | e :: es, h => by
      have hall := (infer_ends site hbs e h.1).seq fun t =>
        (inferAll_ends site hbs es h.2).seq fun types => .pure ((e.span, t) :: types)
      refine hall.count ?_
      simp only [Expr.preorderAll, List.length_append]
      omega

end

/-! ## Statements -/

/-- Declaring a variable ends and changes the innermost block at most. -/
theorem declareFound_ends (site : CheckSite) (name : String) (value : Expr) (isConst : Bool)
    (sp : Option Span) (found : Option Ty) (hbs : bs ≠ []) :
    Ends site.filename g Δ bs (declareFound site name value isConst sp found) 0 (Outer bs) := by
  have hdeclare (v : Variable) : Ends site.filename g Δ bs
      (declare v >>= fun new => if !new then report site sp (.duplicateVariable name) else pure ())
      0 (Outer bs) := by
    refine Ends.count ((declare_ends v hbs).bind fun new bs₁ hbs₁ => ?_) (Nat.add_zero 0)
    exact ((ite_report_ends _ site sp _).outer hbs₁.ne_nil).mono fun _ => hbs₁.trans
  unfold declareFound
  dsimp only
  split
  · exact (report_ends site value.span _).seq fun _ => hdeclare _
  · exact hdeclare _

/-- Checking a declaration records the types of its initial value and changes the innermost block at
most. -/
theorem checkDeclaration_ends (site : CheckSite) (hbs : bs ≠ []) (name : String) {value : Expr}
    (hvalue : value.Plain) (isConst : Bool) (sp : Option Span) :
    Ends site.filename site.globals Δ bs (checkDeclaration site name value isConst sp)
      value.preorder.length (Outer bs) :=
  (infer_ends site hbs value hvalue).seq fun found =>
    declareFound_ends site name value isConst sp found hbs

/-- Comparing the types of an assignment ends, since its operator is plain. -/
theorem checkAssignedType_ends (site : CheckSite) (name : String) {op : AssignOp} (hop : op.Plain)
    (t v : Ty) (sp : Option Span) :
    Ends site.filename g Δ bs (checkAssignedType site name op t v sp) 0 (· = bs) := by
  unfold checkAssignedType
  cases hbinary : op.binary? with
  | none => exact ite_report_ends _ site sp _
  | some binary =>
      obtain ⟨r, hr⟩ := (hop binary hbinary).result_ok t v
      simp only [hr, ofOperator, pure_bind]
      cases r with
      | none => exact report_ends site sp _
      | some r => exact ite_report_ends _ site sp _

/-- What follows the typing of an assigned value ends and records no more types. -/
theorem assignFound_ends (site : CheckSite) (name : String) {op : AssignOp} (hop : op.Plain)
    (sp : Option Span) (target found : Option Ty) :
    Ends site.filename g Δ bs (assignFound site name op sp target found) 0 (· = bs) := by
  unfold assignFound
  split
  · exact checkAssignedType_ends site name hop _ _ sp
  · exact .pure _

/-- Checking an assignment records the types of its value and changes no block. -/
theorem checkAssignment_ends (site : CheckSite) (hbs : bs ≠ []) (name : String) {op : AssignOp}
    (hop : op.Plain) {value : Expr} (hvalue : value.Plain) (sp : Option Span) :
    Ends site.filename site.globals Δ bs (checkAssignment site name op value sp)
      value.preorder.length (· = bs) := by
  refine .count (.read (fun c G f F L hΔ hf => ?_)
    ((orReport_ends site sp .unassignable (Nest.checkAssignable_cases Δ hbs name)).seq fun target =>
      (infer_ends site hbs value hvalue).seq fun found =>
        assignFound_ends site name hop sp (target.bind (·.ty)) found)) ?_
  · rw [L.frame_eq, Frame.checkAssignable_eq_nested L.holds, hΔ, hf]
    rfl
  · omega

/-- Checking a return ends and records no type of its own. -/
theorem checkReturn_ends (site : CheckSite) (value : Option (Option Span × Option Ty))
    (sp : Option Span) : Ends site.filename g Δ bs (checkReturn site value sp) 0 (· = bs) := by
  unfold checkReturn
  split
  · exact report_ends site sp _
  · exact ite_report_ends _ site sp _
  · split
    · exact report_ends site sp _
    · split
      · exact .pure _
      · exact ite_report_ends _ site _ _

/-- Checking a bound of a counting loop ends and records no type of its own. -/
theorem checkCounter_ends (site : CheckSite) (issue : Ty → Issue) (found : Option Ty)
    (sp : Option Span) :
    Ends site.filename g Δ bs (checkCounter site issue found sp) 0 (· = bs) := by
  unfold checkCounter
  split
  · exact .pure _
  · exact .pure _
  · exact report_ends site sp _

mutual

/-- The check of a plain statement ends. It records a type for each expression inside it, and
leaves the blocks around the innermost one alone. -/
theorem checkStmt_ends (site : CheckSite) {bs : List Environment} (hbs : bs ≠ []) :
    ∀ s : Stmt, s.Plain →
      Ends site.filename site.globals Δ bs (checkStmt site s) s.exprs.length (Outer bs)
  | .block body, h => (inBody_ends site hbs body h).outer hbs
  | .declare name value isConst sp, h =>
    (checkDeclaration_ends site hbs name h isConst sp).bind fun _ _ hbs₁ =>
      ((Ends.pure false).outer hbs₁.ne_nil).mono fun _ => hbs₁.trans
  | .assign name _ _ sp, h =>
    ((checkAssignment_ends site hbs name h.1 h.2 sp).seq fun _ => .pure false).outer hbs
  | .call call _, h => ((infer_ends site hbs call h).seq fun _ => .pure false).outer hbs
  | .ifThen cond yes _, h => by
      have hall := (infer_ends site hbs cond h.1).seq fun c =>
        (checkCondition_ends site .ifCondition c cond.span).seq fun _ =>
          (inBody_ends site hbs yes h.2).seq fun _ => .pure false
      refine (hall.count ?_).outer hbs
      simp only [Stmt.exprs, List.length_append]
      omega
  | .ifThenElse cond yes no _, h => by
      have hall := (infer_ends site hbs cond h.1).seq fun c =>
        (checkCondition_ends site .ifCondition c cond.span).seq fun _ =>
          (inBody_ends site hbs yes h.2.1).seq fun y => (inBody_ends site hbs no h.2.2).seq fun n =>
            .pure (y && n)
      refine (hall.count ?_).outer hbs
      simp only [Stmt.exprs, List.length_append]
      omega
  | .whileDo cond body _, h => by
      have hall := (infer_ends site hbs cond h.1).seq fun c =>
        (checkCondition_ends site .whileCondition c cond.span).seq fun _ =>
          (inBody_ends { site with inLoop := true } hbs body h.2).seq fun _ => .pure false
      refine (hall.count ?_).outer hbs
      simp only [Stmt.exprs, List.length_append]
      omega
  | .doWhile body cond _, h => by
      have hall := (inBody_ends { site with inLoop := true } hbs body h.1).seq fun _ =>
        (infer_ends site hbs cond h.2).seq fun c =>
          (checkCondition_ends site .doWhileCondition c cond.span).seq fun _ => .pure false
      refine (hall.count ?_).outer hbs
      simp only [Stmt.exprs, List.length_append]
      omega
  | .forCount counter start bound _ body _, h => by
      -- the counter, the bound and the body share one block
      have hcounter : Ends site.filename site.globals Δ (.empty :: bs) (declareCounter counter) 0
          (Outer (.empty :: bs)) := declareCounter_ends counter
      have hloop := hcounter.bind fun _ bs₁ hbs₁ =>
          (infer_ends site hbs₁.ne_nil bound h.2.1).seq fun last =>
            (checkCounter_ends site .forBound last bound.span).seq fun _ =>
              (checkBody_ends { site with inLoop := true } hbs₁.ne_nil body h.2.2).bind
                fun _ bs₂ hbs₂ => ((Ends.pure false).outer hbs₂.ne_nil).mono fun _ hbs₃ =>
                  hbs₁.trans (hbs₂.trans hbs₃)
      have hall := (infer_ends site hbs start h.1).seq fun first =>
        (checkCounter_ends site .forStart first start.span).seq fun _ => inBlock_ends hbs hloop
      refine (hall.count ?_).outer hbs
      simp only [Stmt.exprs, List.length_append]
      omega
  | .ret none sp, _ => ((checkReturn_ends site none sp).seq fun _ => .pure true).outer hbs
  | .ret (some value) sp, h =>
    ((infer_ends site hbs value h).seq fun found =>
      (checkReturn_ends site (some (value.span, found)) sp).seq fun _ => .pure true).outer hbs
  | .brk sp, _ => by
      refine Ends.outer ?_ hbs
      show Ends _ _ _ _ (if _ then _ else _) 0 _
      split
      · exact (report_ends site sp _).seq fun _ => .pure false
      · exact .pure false
  | .cont sp, _ => by
      refine Ends.outer ?_ hbs
      show Ends _ _ _ _ (if _ then _ else _) 0 _
      split
      · exact (report_ends site sp _).seq fun _ => .pure false
      · exact .pure false
  | .other _ _ _, h => h.elim

/-- Checking a body in a block of its own ends with all blocks as they were. -/
theorem inBody_ends (site : CheckSite) {bs : List Environment} (hbs : bs ≠ []) :
    ∀ b : Block, b.Plain →
      Ends site.filename site.globals Δ bs (inBlock (checkBody site b)) b.exprs.length (· = bs)
  | .mk stmts _ _, h =>
    inBlock_ends hbs (checkStmts_ends site (List.cons_ne_nil .empty bs) stmts h)

/-- Checking a body records the types of its expressions and changes the innermost block at most. -/
theorem checkBody_ends (site : CheckSite) {bs : List Environment} (hbs : bs ≠ []) :
    ∀ b : Block, b.Plain →
      Ends site.filename site.globals Δ bs (checkBody site b) b.exprs.length (Outer bs)
  | .mk stmts _ _, h => checkStmts_ends site hbs stmts h

/-- Checking plain statements one after another ends, each from the blocks that the one before
leaves. -/
theorem checkStmts_ends (site : CheckSite) {bs : List Environment} (hbs : bs ≠ []) :
    ∀ ss : List Stmt, Stmt.PlainAll ss →
      Ends site.filename site.globals Δ bs (checkStmts site ss) (Stmt.exprsAll ss).length
        (Outer bs)
  | [], _ => (Ends.pure false).outer hbs
  | s :: ss, h => by
      have hall := (checkStmt_ends site hbs s h.1).bind fun returns bs₁ hbs₁ =>
        (checkStmts_ends site hbs₁.ne_nil ss h.2).bind fun more bs₂ hbs₂ =>
          ((Ends.pure (returns || more)).outer hbs₂.ne_nil).mono fun _ hbs₃ =>
            hbs₁.trans (hbs₂.trans hbs₃)
      refine hall.count ?_
      simp only [Stmt.exprsAll, List.length_append]
      omega

end

/-! ## Functions -/

/-- Declaring parameters ends, also where two of them have one name. -/
theorem declareParams_ends {bs : List Environment} (hbs : bs ≠ []) :
    ∀ params : List Parameter, Ends filename g Δ bs (declareParams params) 0 (Outer bs)
  | [] => (Ends.pure ()).outer hbs
  | p :: params =>
    Ends.bind (declare_ends { name := p.name, ty := some p.ty } hbs) fun _ _ hbs₁ =>
      (declareParams_ends hbs₁.ne_nil params).mono fun _ => hbs₁.trans

/-- The check of a plain function finds the same wherever it takes place. -/
theorem checkFunction_finds (site : CheckSite) (Δ : Environment) {d : FuncDecl} (hd : d.Plain) :
    ∃ φ : Findings, φ.types.length = d.body.exprs.length ∧
      ∀ bs, Finds site.filename site.globals Δ bs (checkFunction site d) () φ bs := by
  obtain ⟨⟨f, hf⟩, hbody⟩ := hd
  have hne : ([Environment.empty] : List Environment) ≠ [] := List.cons_ne_nil _ _
  let inner : CheckSite := { site with function := some (d.name, f.returns), inLoop := false }
  have hparams : Ends site.filename site.globals Δ [.empty] (declareParams f.params) 0
      (Outer [.empty]) := declareParams_ends hne f.params
  have hall := hparams.bind fun _ bs₁ hbs₁ =>
    (((inBody_ends inner hbs₁.ne_nil d.body hbody).seq fun returns =>
      ite_report_ends ((f.returns ≠ .void && !returns) = true) inner d.span
        (.missingReturn d.name f.returns)).outer hbs₁.ne_nil).mono fun _ => hbs₁.trans
  obtain ⟨u, φ, hlength, hφ⟩ := inFrame_finds hall
  refine ⟨φ, by omega, fun bs => ?_⟩
  unfold checkFunction
  rw [hf]
  exact hφ bs

end Check

end Pigeon
