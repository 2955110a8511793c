import Pigeon.Proofs.Grammar.Plain
import Pigeon.Proofs.Typing.Decides
import Pigeon.Session

/-!
# Loaded programs

`Session.load` runs all stages before evaluation: it reads the program, installs the natives,
declares the functions and checks the program. The main result of this module is that a program
which was read is loaded without diagnostics if and only if it follows the typing rules.
-/

namespace Pigeon

/-- The types that the first check of a program finds are recorded as they are. -/
theorem Annotations.get?_overlay (found : Array (Option Ty)) (i : Nat) :
    (overlay {} found).get? i = (found[i]?).join := by
  simp only [overlay, get?, Array.getElem?_ofFn]
  by_cases h : i < found.size
  · simp [h]
  · simp [h]

namespace Session

/-- A step that succeeds and leaves no diagnostics. -/
theorem exists_of_quiet {x : Except Failure Unit × Session}
    (h : x.1.isOk = true ∧ x.2.diagnostics.isEmpty = true) :
    ∃ s, x = (.ok (), s) ∧ s.diagnostics = [] := by
  obtain ⟨r, s⟩ := x
  obtain ⟨u, rfl⟩ := exists_of_isOk h.1
  exact ⟨s, rfl, List.isEmpty_iff.mp h.2⟩

/-- A step that succeeds and leaves no diagnostics, and what else holds of the session after it. -/
theorem exists_of_quiet_and {x : Except Failure Unit × Session} {Q : Session → Prop}
    (h : x.1.isOk = true ∧ x.2.diagnostics.isEmpty = true ∧ Q x.2) :
    ∃ s, x = (.ok (), s) ∧ s.diagnostics = [] ∧ Q s := by
  obtain ⟨s, hs, hd⟩ := exists_of_quiet ⟨h.1, h.2.1⟩
  refine ⟨s, hs, hd, ?_⟩
  have hQ := h.2.2
  rw [hs] at hQ
  exact hQ

variable {natives : Natives} {p : Program} {source : String} {filename : Option String}

/-! ## Steps up to the journal -/

/-- Whatever the journal holds, the step leads from the session `s` to the session `t` and gives
the result `r`. -/
def Takes {α : Type} (x : Step α) (s : Session) (r : Except Failure α) (t : Session) : Prop :=
  ∀ j, ∃ j', x { s with journal := j } = (r, { t with journal := j' })

namespace Takes

variable {α β : Type} {x : Step α} {s t u : Session} {a : α} {e : Failure} {r : Except Failure β}

/-- Two steps of a session in a row take it over both, whatever the journals are. -/
theorem bind {f : α → Step β} (hx : Takes x s (.ok a) t) (hf : Takes (f a) t r u) :
    Takes (x >>= f) s r u := by
  intro j
  obtain ⟨j₁, hx⟩ := hx j
  obtain ⟨j₂, hf⟩ := hf j₁
  exact ⟨j₂, by rw [Step.bind_ok hx, hf]⟩

/-- A step that fails takes what follows it nowhere else. -/
theorem bind_error {f : α → Step β} (hx : Takes x s (.error e) t) :
    Takes (x >>= f) s (.error e) t := by
  intro j
  obtain ⟨j₁, hx⟩ := hx j
  exact ⟨j₁, Step.bind_error hx⟩

/-- An entry in the journal does not count. -/
theorem note (g : Journal → Journal) : Takes (Session.note g) s (.ok ()) s :=
  fun j => ⟨g j, rfl⟩

/-- A step that reads the session is taken from each journal. -/
theorem get {f : Session → Step β} (hf : ∀ j, Takes (f { s with journal := j }) s r t) :
    Takes (MonadState.get >>= f) s r t :=
  fun j => hf j j

theorem set (t : Session) : Takes (MonadStateOf.set t) s (.ok ()) t :=
  fun _ => ⟨t.journal, rfl⟩

theorem ofExcept (x : Except Failure α) : Takes (Session.ofExcept x) s x s := by
  intro j
  cases x with
  | ok a => exact ⟨j, rfl⟩
  | error e => exact ⟨j, rfl⟩

end Takes

variable {s : Session}

/-! ## The stages -/

/-- A program that can be read takes the place of the current one. -/
theorem loadProgram_takes (h : Program.ofSource source unnamedSource filename = .ok p)
    (s : Session) : Takes (loadProgram source filename) s (.ok true)
      { s with program := some p, annotations := s.annotations.retire } := by
  obtain ⟨tokens, hscan, hread⟩ := Program.ofSource_eq_ok_iff.mp h
  intro j
  unfold loadProgram
  simp only [hscan, hread]
  exact ⟨_, rfl⟩

/-- A program that is loaded was read, and one that is not has left a diagnostic. -/
theorem loadProgram_cases {t : Session} {b : Bool}
    (h : loadProgram source filename s = (.ok b, t)) :
    (b = true ∧ ∃ p, Program.ofSource source unnamedSource filename = .ok p) ∨
      (b = false ∧ t.diagnostics ≠ []) := by
  unfold loadProgram at h
  cases hscan : Token.scan source with
  | error e =>
      rw [hscan] at h
      cases e with
      | lexical e =>
          cases h
          exact .inr ⟨rfl, List.cons_ne_nil _ _⟩
      | numeral e => cases h
  | ok tokens =>
      simp only [hscan] at h
      rw [Step.bind_ok (by rfl : note _ s = (.ok (), _))] at h
      cases hread : Program.ofTokens tokens filename with
      | error e =>
          rw [hread] at h
          cases e with
          | grammar e =>
              cases h
              exact .inr ⟨rfl, List.cons_ne_nil _ _⟩
          | _ => cases h
      | ok p =>
          rw [hread] at h
          cases h
          exact .inl ⟨rfl, p, Program.ofSource_eq_ok_iff.mpr ⟨tokens, hscan, hread⟩⟩

/-- Installing takes a session to the arena with the symbols of its natives, if they can be
installed. -/
theorem install_takes {a : Arena} (h : s.natives.install s.globals s.arena = (.ok (), a)) :
    Takes install s (.ok ()) { s with arena := a } := by
  refine .get fun j => ?_
  simp only [h]
  exact .bind (.set { s with arena := a, journal := j }) (.ofExcept (.ok ()))

/-- The session once the functions of its program `p` are declared. -/
def declared (s : Session) (filename : Option String) (p : Program) : Session :=
  { s with
    program := some p
    arena := (FuncDecl.predeclareAll filename s.globals p.functions s.arena).arena
    diagnostics := s.diagnostics ++
      (FuncDecl.predeclareAll filename s.globals p.functions s.arena).diagnostics }

/-- Declaring the functions takes a session to the arena that has them. -/
theorem predeclare_takes (filename : Option String) (h : s.program = some p) :
    Takes (predeclare filename) s
      (FuncDecl.predeclareAll filename s.globals p.functions s.arena).result
      (s.declared filename p) := by
  refine .get fun j => ?_
  simp only [h]
  exact .bind (.set { s.declared filename p with journal := j }) (.ofExcept _)

/-- The session once its program `p` is checked. -/
def checked (s : Session) (p : Program) : Session :=
  { s with
    program := some p
    arena := (p.check s.globals s.arena).arena
    diagnostics := s.diagnostics ++ (p.check s.globals s.arena).diagnostics
    annotations := s.annotations.overlay (p.check s.globals s.arena).types }

/-- Checking takes a session to where the check of its program ends. -/
theorem check_takes (h : s.program = some p) :
    Takes check s (p.check s.globals s.arena).result (s.checked p) := by
  refine .get fun j => ?_
  simp only [h]
  refine .bind (.set { s.checked p with journal := j }) ?_
  cases hresult : (p.check s.globals s.arena).result with
  | ok u => exact .bind (.ofExcept (.ok ())) (.note _)
  | error e => exact .bind_error (.ofExcept (.error e))

/-- The session in which a program was read and the natives are installed in the arena `a`. -/
def installed (natives : Natives) (host : Host) (p : Program) (a : Arena) : Session :=
  { journal := { context := none, time := "" }
    natives := natives
    host := host
    arena := a
    globals := 0
    program := some p }

/-- The stages before the program is checked. -/
def prepare (source : String) (filename : Option String) : Step Unit := do
  if ← loadProgram source filename then
    install
    predeclare filename

/-- The nodes that the check of a session meets, in order. -/
def visits (s : Session) : List Visit :=
  match s.program with
  | none => []
  | some p => p.visits s.globals s.arena

/-- A program that can be read is loaded as far as the first stage that fails. -/
theorem load_takes (hn : natives.Registered)
    (hp : Program.ofSource source unnamedSource filename = .ok p) (host : Host)
    (context : Option LogContext) (time : String) :
    ∃ a : Arena, a.Holds 0 (Symbol.named natives.symbols) [] ∧
      let s := installed natives host p a
      (∀ e, (FuncDecl.predeclareAll filename 0 p.functions a).result = .error e →
        Takes (load source filename) (start natives host context time) (.error e)
          (s.declared filename p)) ∧
      ((FuncDecl.predeclareAll filename 0 p.functions a).result = .ok () →
        Takes (prepare source filename) (start natives host context time) (.ok ())
          (s.declared filename p) ∧
        Takes (load source filename) (start natives host context time)
          (p.check 0 (FuncDecl.predeclareAll filename 0 p.functions a).arena).result
          ((s.declared filename p).checked p)) := by
  obtain ⟨hstart, H⟩ := Arena.holds_start
  obtain ⟨a, hinstall, H'⟩ := hn.install H
  refine ⟨a, H', ?_⟩
  intro s
  have hs : s.program = some p := rfl
  -- whatever the declaration of functions comes to, the same steps stand before it
  have hfirst {r : Except Failure Unit} {t : Session}
      (hrest : Takes (predeclare filename >>= fun _ => note (·.stage "Analyzing" none) >>= fun _ =>
        check >>= fun _ => MonadState.get >>= fun s =>
          note (·.info s!"Analysis complete: {s.diagnostics.length} error(s)")) s r t) :
      Takes (load source filename) (start natives host context time) r t :=
    .bind (.note _) <| .bind (loadProgram_takes hp _) <| .get fun _ => .bind (.note _) <|
      .bind (.note _) <| .bind (install_takes hinstall) <| .get fun _ => .bind (.note _) <|
        .bind (.note _) hrest
  constructor
  · intro e he
    have hd := predeclare_takes filename hs
    rw [show (FuncDecl.predeclareAll filename s.globals p.functions s.arena).result = .error e
      from he] at hd
    exact hfirst (.bind_error hd)
  · intro hok
    have hd := predeclare_takes filename hs
    rw [show (FuncDecl.predeclareAll filename s.globals p.functions s.arena).result = .ok ()
      from hok] at hd
    refine ⟨.bind (loadProgram_takes hp _) (.bind (install_takes hinstall) hd),
      hfirst (.bind hd (.bind (.note _) ?_))⟩
    have hc := check_takes (p := p) (s := s.declared filename p) hs
    cases hresult : (p.check 0 (FuncDecl.predeclareAll filename 0 p.functions a).arena).result with
    | ok u =>
        rw [show (p.check (s.declared filename p).globals (s.declared filename p).arena).result =
          .ok u from hresult] at hc
        exact .bind hc (.get fun _ => .note _)
    | error e =>
        rw [show (p.check (s.declared filename p).globals (s.declared filename p).arena).result =
          .error e from hresult] at hc
        exact .bind_error hc

/-! ## Loading decides the rules -/

/-- A program that was read and reports nothing follows the rules. -/
theorem wellTyped_of_load (hn : natives.Registered)
    (hp : Program.ofSource source unnamedSource filename = .ok p) {host : Host}
    {context : Option LogContext} {time : String}
    (hd : (load source filename (start natives host context time)).2.diagnostics = []) :
    p.WellTyped natives := by
  obtain ⟨a, H, herror, hok⟩ := load_takes hn hp host context time
  cases hresult : (FuncDecl.predeclareAll filename 0 p.functions a).result with
  | error e =>
      obtain ⟨j, hload⟩ := herror e hresult { context := context, time := time }
      rw [show load source filename (start natives host context time) = _ from hload] at hd
      refine Program.wellTyped_of_quiet (Program.plain_of_ofSource hp) H hd fun h => ?_
      rw [hresult] at h
      cases h
  | ok u =>
      obtain ⟨j, hload⟩ := (hok hresult).2 { context := context, time := time }
      rw [show load source filename (start natives host context time) = _ from hload] at hd
      obtain ⟨hpre, hcheck⟩ := List.append_eq_nil_iff.mp hd
      exact Program.wellTyped_of_quiet (Program.plain_of_ofSource hp) H hpre fun _ => hcheck

/-- What holds of a session in which a program was loaded without diagnostics, and of the session
`s₀` before the check. -/
structure Loaded (natives : Natives) (p : Program) (s₀ s : Session) : Prop where
  natives_eq : s.natives = natives
  globals_eq : s.globals = 0
  program_eq : s.program = some p
  diagnostics_eq : s.diagnostics = []
  wellTyped : p.WellTyped natives
  /-- The global scope holds the natives and the functions of the program. -/
  holds : ∃ fs, FuncDecl.Describe p.functions fs ∧
    s.arena.Holds 0 (Program.globalSymbols natives fs) []
  /-- Every expression has its type in the context of its site. -/
  types : ∀ i, s.annotations.get? i =
    ((Site.types (p.globals natives) (p.sites natives))[i]?).join
  /-- The check leads from the one session to the other. -/
  checked : ∃ j, check s₀ = (.ok (), { s with journal := j })
  /-- The check has met every node in the context of its site. -/
  visited : ∃ G, Symbols.Means G (p.globals natives) ∧
    List.Forall₂ (Visit.Shows 0 G) s₀.visits (p.sites natives)

/-- A program that follows the rules is loaded without diagnostics. -/
theorem load_wellTyped (hn : natives.Registered)
    (hp : Program.ofSource source unnamedSource filename = .ok p) (W : p.WellTyped natives)
    (host : Host) (context : Option LogContext) (time : String) :
    ∃ s₀ s, prepare source filename (start natives host context time) = (.ok (), s₀) ∧
      load source filename (start natives host context time) = (.ok (), s) ∧
      Loaded natives p s₀ s := by
  obtain ⟨a, H, -, hok⟩ := load_takes hn hp host context time
  obtain ⟨fs, hfs, -⟩ := W.describe
  obtain ⟨a', hpre, H'⟩ := W.predeclareAll hfs H filename
  obtain ⟨hresult, hd, htypes, Hc, hvisits⟩ := Program.check_typed H' (Program.means_globals hfs) W
  have hsession : (installed natives host p a).declared filename p =
      installed natives host p a' := by
    show { installed natives host p a with
      arena := (FuncDecl.predeclareAll filename 0 p.functions a).arena
      diagnostics := [] ++ (FuncDecl.predeclareAll filename 0 p.functions a).diagnostics } = _
    rw [hpre]
    rfl
  rw [hpre] at hok
  obtain ⟨hprepare, hload⟩ := hok rfl
  rw [hsession] at hprepare hload
  rw [hresult] at hload
  obtain ⟨j₀, hprepare⟩ := hprepare { context := context, time := time }
  obtain ⟨j, hload⟩ := hload { context := context, time := time }
  obtain ⟨j', hcheck⟩ := check_takes (s := installed natives host p a') (p := p) rfl j₀
  refine ⟨_, _, hprepare, hload, rfl, rfl, rfl, ?_, W, ⟨fs, hfs, Hc⟩, ?_, ⟨j', ?_⟩,
    ⟨_, Program.means_globals hfs, hvisits⟩⟩
  · show [] ++ (p.check 0 a').diagnostics = []
    rw [hd]
    rfl
  · intro i
    show (Annotations.overlay {} (p.check 0 a').types).get? i = _
    rw [Annotations.get?_overlay, ← Array.getElem?_toList, htypes]
  · refine hcheck.trans ?_
    show ((p.check 0 a').result, _) = _
    rw [hresult]

/-- What is loaded without diagnostics is a program that was read and follows the rules. -/
theorem loaded_of_load (hn : natives.Registered) {host : Host} {context : Option LogContext}
    {time : String} (hload : load source filename (start natives host context time) = (.ok (), s))
    (hd : s.diagnostics = []) :
    ∃ p s₀, Program.ofSource source unnamedSource filename = .ok p ∧
      prepare source filename (start natives host context time) = (.ok (), s₀) ∧
      Loaded natives p s₀ s := by
  obtain ⟨p, hp⟩ : ∃ p, Program.ofSource source unnamedSource filename = .ok p := by
    have hload' := hload
    unfold load at hload'
    rw [Step.bind_ok (by rfl : note _ _ = (.ok (), _)), Step.bind_apply] at hload'
    rcases hread : loadProgram source filename _ with ⟨r, t⟩
    rw [hread] at hload'
    cases r with
    | error e => cases hload'
    | ok b =>
        rcases loadProgram_cases hread with ⟨-, hp⟩ | ⟨rfl, hne⟩
        · exact hp
        · cases hload'
          exact absurd hd hne
  have hd' : (load source filename (start natives host context time)).2.diagnostics = [] := by
    rw [hload]
    exact hd
  have W := wellTyped_of_load hn hp hd'
  obtain ⟨s₀, t, hprepare, hload', L⟩ := load_wellTyped hn hp W host context time
  obtain rfl : t = s := congrArg Prod.snd (hload'.symm.trans hload)
  exact ⟨p, s₀, hp, hprepare, L⟩

/-- Loading decides the rules: a program that was read has no diagnostics if and only if it follows
the rules, and it is then loaded without a failure. -/
theorem load_diagnostics_eq_nil_iff (hn : natives.Registered)
    (hp : Program.ofSource source unnamedSource filename = .ok p) (host : Host)
    (context : Option LogContext) (time : String) :
    ((load source filename (start natives host context time)).2.diagnostics = [] ↔
      p.WellTyped natives) ∧
    (p.WellTyped natives →
      (load source filename (start natives host context time)).1 = .ok ()) := by
  refine ⟨⟨wellTyped_of_load hn hp, fun W => ?_⟩, fun W => ?_⟩
  · obtain ⟨s₀, s, -, hload, L⟩ := load_wellTyped hn hp W host context time
    rw [hload]
    exact L.diagnostics_eq
  · obtain ⟨s₀, s, -, hload, -⟩ := load_wellTyped hn hp W host context time
    rw [hload]

/-- A program with a function and a native call that is loaded without diagnostics, and so follows
the rules. -/
theorem load_diagnostics_eq_nil_iff_half :
    ∃ p, Program.ofSource "int half(int n) return n / 2; print(half(7) + 1);" unnamedSource none =
        .ok p ∧ p.WellTyped Console.natives := by
  obtain ⟨p, hp⟩ : ∃ p, Program.ofSource "int half(int n) return n / 2; print(half(7) + 1);"
      unnamedSource none = .ok p := exists_of_isOk (by decide +kernel)
  refine ⟨p, hp, (load_diagnostics_eq_nil_iff Console.natives_registered hp {} none "").1.mp ?_⟩
  exact List.isEmpty_iff.mp (by decide +kernel)

end Session

end Pigeon
