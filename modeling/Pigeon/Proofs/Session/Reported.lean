import Pigeon.Proofs.Grammar.Decides
import Pigeon.Proofs.Session.Loaded
import Pigeon.Proofs.Token.Valueless
import Pigeon.Proofs.Typing.Total

/-!
# Mistakes are reported

Whatever the source text is, loading it ends without a failure: either the text is no program, and
the only diagnostic says where, or the program was read, and the diagnostics are those of its
analysis. There is one exception. A number literal without a value ends the loading with the failure
to read it, which is no diagnostic.
-/

namespace Pigeon

/-! ## Diagnostics of the analysis -/

/-- No issue of the checker is a syntax error. -/
theorem Issue.diagnostic_kind_ne (i : Issue) (filename : Option String) (span : Option Span) :
    (i.diagnostic filename span).kind ≠ .syntaxError := by
  show i.kind ≠ .syntaxError
  cases i with
  | unresolved e => cases e <;> nofun
  | unassignable e => cases e <;> nofun
  | _ => nofun

/-- Nothing that the check finds is a syntax error. -/
theorem Findings.diagnostics_kind_ne (filename : Option String) (φ : Findings) :
    ∀ d ∈ φ.diagnostics filename, d.kind ≠ .syntaxError := by
  intro d hd
  obtain ⟨⟨sp, issue⟩, -, rfl⟩ := List.mem_map.mp hd
  exact issue.diagnostic_kind_ne _ _

namespace FuncDecl

variable (filename : Option String)

/-- Nothing that is wrong with parameters is a syntax error. -/
theorem paramIssues_kind_ne (function : String) (params : List Param) (seen : List String) :
    ∀ d ∈ (paramIssues filename function seen params).2, d.kind ≠ .syntaxError := by
  induction params generalizing seen with
  | nil =>
      intro d hd
      cases hd
  | cons p ps ih =>
      have hone {b : Prop} [Decidable b] (issue : Issue) :
          ∀ d ∈ (if b then [issue.diagnostic filename p.span] else []), d.kind ≠ .syntaxError := by
        intro d hd
        split at hd
        · cases List.mem_singleton.mp hd
          exact issue.diagnostic_kind_ne _ _
        · cases hd
      unfold paramIssues
      cases Ty.ofName p.typeName with
      | error e => exact hone _
      | ok t =>
          intro d hd
          rcases List.mem_append.mp hd with hd | hd
          · exact (List.mem_append.mp hd).elim (hone _ d) (hone _ d)
          · exact ih _ d hd

/-- Nothing that is reported about a declaration is a syntax error. -/
theorem reports_kind_ne (d : FuncDecl) (found : Option Symbol) :
    ∀ x ∈ d.reports filename found, x.kind ≠ .syntaxError := by
  intro x hx
  rcases List.mem_append.mp hx with hx | hx
  · exact paramIssues_kind_ne filename d.name d.params [] x hx
  · rcases found with _ | (v | f)
    · cases hx
    all_goals
      cases List.mem_singleton.mp hx
      exact Issue.diagnostic_kind_ne _ _ _

/-- Nothing that is reported about declarations is a syntax error. -/
theorem reportsAll_kind_ne (describe : FuncDecl → Function) (ds : List FuncDecl) (G : Symbols) :
    ∀ x ∈ reportsAll filename describe G ds, x.kind ≠ .syntaxError := by
  induction ds generalizing G with
  | nil =>
      intro d hd
      cases hd
  | cons d ds ih =>
      intro x hx
      rcases List.mem_append.mp hx with hx | hx
      · exact d.reports_kind_ne filename _ x hx
      · exact ih _ x hx

end FuncDecl

namespace Session

variable {natives : Natives}

/-- The source text was refused: the only diagnostic is a syntax error at a line and a column, and
nothing else was done. -/
structure Refused (s : Session) : Prop where
  diagnostic : ∃ d line column, s.diagnostics = [d] ∧ d.kind = .syntaxError ∧
    d.line = some line ∧ d.column = some column
  program_eq : s.program = none
  globals_eq : s.arena.globals s.globals = .ok []

/-- The program `p` was read, and what is reported about it is no syntax error. -/
structure Accepted (p : Program) (s : Session) : Prop where
  program_eq : s.program = some p
  diagnostics : ∀ d ∈ s.diagnostics, d.kind ≠ .syntaxError

/-! ## Reading -/

/-- A source text is read as a program, or it is refused at a position, or it holds a number literal
without a value. -/
theorem loadProgram_takes_cases (source : String) (filename : Option String) (s : Session) :
    (∃ p, Program.ofSource source unnamedSource filename = .ok p) ∨
    (∃ message position, Takes (loadProgram source filename) s (.ok false)
      { s with diagnostics := [.atPosition .syntaxError message filename (some position)] }) ∨
    Token.HoldsValueless source.toList ∧
      ∃ e, Takes (loadProgram source filename) s (.error (.argument (.numeral e))) s := by
  unfold loadProgram Program.ofSource
  cases hscan : Token.scan source with
  | error e =>
      cases e with
      | lexical e => exact Or.inr (Or.inl ⟨e.message, e.position, fun j => ⟨j, rfl⟩⟩)
      | numeral e =>
          have hvalueless := Token.holdsValueless_of_scan (Or.inl ⟨e, hscan⟩)
          exact Or.inr (Or.inr ⟨hvalueless, e, fun j => ⟨j, rfl⟩⟩)
  | ok tokens =>
      obtain ⟨ts, eof, rfl, heof, hts⟩ := Token.exists_eof_of_scan hscan
      rcases Program.ofTokens_settles filename [] heof hts with ⟨p, hp, -⟩ | ⟨e, he, -, hat⟩
      · exact Or.inl ⟨p, by simp only [hp]⟩
      · simp only [he]
        match e, hat with
        | .grammar e, _ =>
            refine Or.inr (Or.inl ⟨e.message, e.token.position, ?_⟩)
            exact .bind (.note _) fun j => ⟨j, rfl⟩
        | .numeral e, hbad =>
            have hvalueless := Token.holdsValueless_of_scan (Or.inr ⟨_, hscan, hbad⟩)
            refine Or.inr (Or.inr ⟨hvalueless, e, ?_⟩)
            exact .bind (.note _) fun j => ⟨j, rfl⟩

/-! ## Loading -/

/-- A program that was read is declared without a failure, and then checked without a failure. What
both report is no syntax error. -/
theorem load_checks (hn : natives.Registered) {source : String} {filename : Option String}
    {p : Program} (hp : Program.ofSource source unnamedSource filename = .ok p) (host : Host)
    (context : Option LogContext) (time : String) :
    ∃ (a : Arena) (fs : List Function) (reports : List Diagnostic),
      a.Holds 0 ((Symbol.named natives.symbols).addFunctions fs) [] ∧
      (p.check 0 a).result = .ok () ∧
      (∀ d ∈ reports ++ (p.check 0 a).diagnostics, d.kind ≠ .syntaxError) ∧
      let s : Session := { installed natives host p a with diagnostics := reports }
      Takes (prepare source filename) (start natives host context time) (.ok ()) s ∧
      Takes (load source filename) (start natives host context time) (.ok ()) (s.checked p) := by
  have hplain := Program.plain_of_ofSource hp
  obtain ⟨a, H, -, hok⟩ := load_takes hn hp host context time
  obtain ⟨describe, hspelled⟩ := hplain.exists_functions
  obtain ⟨a', hdeclare, H'⟩ := FuncDecl.predeclareAll_eq filename hspelled H
  obtain ⟨F, φs, hfinds⟩ := hplain.exists_finds 0 (Symbols.find? _)
  obtain ⟨_, -, hcheck⟩ := hfinds.check_eq H'
  have hresult : (p.check 0 a').result = .ok () := by rw [hcheck]
  have hreports := FuncDecl.reportsAll_kind_ne filename describe p.functions
    (Symbol.named natives.symbols)
  generalize FuncDecl.reportsAll _ _ _ _ = reports at hdeclare hreports
  have hdeclared : (installed natives host p a).declared filename p =
      { installed natives host p a' with diagnostics := reports } := by
    unfold declared
    rw [show FuncDecl.predeclareAll filename (installed natives host p a).globals p.functions
      (installed natives host p a).arena = _ from hdeclare]
    rfl
  rw [hdeclare] at hok
  obtain ⟨hprepare, hload⟩ := hok rfl
  rw [hdeclared] at hprepare hload
  rw [hresult] at hload
  refine ⟨a', _, reports, H', hresult, List.forall_mem_append.mpr ⟨hreports, ?_⟩, hprepare, hload⟩
  rw [hcheck]
  exact Findings.diagnostics_kind_ne p.filename _

/-- A program that was read is accepted. -/
theorem load_accepts (hn : natives.Registered) {source : String} {filename : Option String}
    {p : Program} (hp : Program.ofSource source unnamedSource filename = .ok p) (host : Host)
    (context : Option LogContext) (time : String) :
    ∃ s, load source filename (start natives host context time) = (.ok (), s) ∧ s.Accepted p := by
  obtain ⟨a, fs, reports, -, -, hkinds, -, hload⟩ := load_checks hn hp host context time
  obtain ⟨j, hload⟩ := hload { context := context, time := time }
  exact ⟨_, hload, rfl, hkinds⟩

/-- Let natives be registered. Every source text is loaded without a failure, and is refused at a
position, or else read as a program without a syntax error, unless it holds a number literal without
a value. The only other end is the failure to read such a literal. -/
theorem load_reports_mistakes (hn : natives.Registered) (source : String)
    (filename : Option String) (host : Host) (context : Option LogContext) (time : String) :
    (∃ s, load source filename (start natives host context time) = (.ok (), s) ∧
      (s.Refused ∨
        ∃ p, Program.ofSource source unnamedSource filename = .ok p ∧ s.Accepted p)) ∨
    Token.HoldsValueless source.toList ∧
      ∃ e s, load source filename (start natives host context time) =
        (.error (.argument (.numeral e)), s) := by
  rcases loadProgram_takes_cases source filename (start natives host context time) with
    ⟨p, hp⟩ | ⟨message, position, hread⟩ | ⟨hvalueless, e, hread⟩
  · obtain ⟨s, hload, haccepted⟩ := load_accepts hn hp host context time
    exact Or.inl ⟨s, hload, Or.inr ⟨p, hp, haccepted⟩⟩
  · have hload : Takes (load source filename) (start natives host context time) (.ok ()) _ :=
      .bind (.note _) (.bind hread (.ofExcept (.ok ())))
    obtain ⟨j, hload⟩ := hload { context := context, time := time }
    exact Or.inl ⟨_, hload, Or.inl ⟨⟨_, _, _, rfl, rfl, rfl, rfl⟩, rfl, rfl⟩⟩
  · have hload : Takes (load source filename) (start natives host context time)
        (.error (.argument (.numeral e))) _ := .bind (.note _) (.bind_error hread)
    obtain ⟨j, hload⟩ := hload { context := context, time := time }
    exact Or.inr ⟨hvalueless, e, _, hload⟩

/-- Digits without a value make no difference in comments and string literals: what is reported is
the missing operand. -/
theorem load_reports_mistakes_operand :
    ∃ s, load "/* 1² */ let s = \"²\"; let x = ٣ + ; // 2.²" none
      (start Console.natives {} none "") = (.ok (), s) ∧ s.Refused := by
  let source := "/* 1² */ let s = \"²\"; let x = ٣ + ; // 2.²"
  have hok : (load source none (start Console.natives {} none "")).1.isOk = true := by
    decide +kernel
  have hread : (Program.ofSource source unnamedSource none).isOk = false := by decide +kernel
  rcases load_reports_mistakes Console.natives_registered source none {} none "" with
    ⟨s, hload, hrefused | ⟨p, hp, -⟩⟩ | ⟨-, e, s, hload⟩
  · exact ⟨s, hload, hrefused⟩
  · rw [hp] at hread
    cases hread
  · rw [hload] at hok
    cases hok

/-- A digit without a value in a number literal ends the loading with a failure. -/
theorem load_reports_mistakes_fails :
    (load "let x = 1²;" none (start Console.natives {} none "")).1 =
      .error (.argument (.numeral (.notAnInt "1²"))) := by
  decide +kernel

end Session

end Pigeon
