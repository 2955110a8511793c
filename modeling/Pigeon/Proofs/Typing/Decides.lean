import Pigeon.Proofs.Typing.Predeclare
import Pigeon.Proofs.Typing.Sound

/-!
# The front end decides the rules

The functions of a program are declared in a global scope that holds the natives, and then the
program is checked. For a plain program nothing is reported if and only if the program follows the
rules.
-/

namespace Pigeon

variable {natives : Natives} {p : Program} {g : Handle} {a : Arena} {filename : Option String}

/-- The global scope of a program: the natives and then the functions of the program. -/
def Program.globalSymbols (natives : Natives) (fs : List Function) : Symbols :=
  Symbol.named natives.symbols ++ Symbol.named (fs.map .func)

/-- A name that is not native is not among the installed symbols. -/
theorem Natives.find?_named_eq_none_iff {name : String} :
    Symbols.find? (Symbol.named natives.symbols) name = none ↔ name ∉ natives.names := by
  rw [← natives.map_name_symbols]
  unfold Symbols.find? Symbol.named
  simp only [List.lookup_eq_none_iff, List.mem_map, not_exists, not_and, bne_iff_ne]
  constructor
  · intro h s hs e
    exact h _ ⟨s, hs, rfl⟩ e.symm
  · rintro h _ ⟨s, hs, rfl⟩ e
    exact h s hs e.symm

/-- The functions of a typed program have parameters in order. -/
theorem Program.WellTyped.describe (W : p.WellTyped natives) :
    ∃ fs, FuncDecl.Describe p.functions fs ∧
      List.Forall₂ (FuncDecl.WellTyped (p.globals natives)) p.functions fs := by
  have hfunctions := W.functions
  generalize p.functions = ds at hfunctions ⊢
  induction ds with
  | nil => exact ⟨[], .nil, .nil⟩
  | cons d ds ih =>
      obtain ⟨f, Wf⟩ := hfunctions d (by simp)
      obtain ⟨fs, hfs, hall⟩ := ih fun d' hd' => hfunctions d' (by simp [hd'])
      exact ⟨f :: fs, .cons ⟨Wf.function, Wf.params_nodup, Wf.params_ne_void⟩ hfs, .cons Wf hall⟩

/-- The functions of a typed program are declared without a report. -/
theorem Program.WellTyped.predeclareAll (W : p.WellTyped natives) {fs : List Function}
    (hfs : FuncDecl.Describe p.functions fs)
    (H : a.Holds g (Symbol.named natives.symbols) []) (filename : Option String) :
    ∃ a', FuncDecl.predeclareAll filename g p.functions a = ⟨.ok (), [], a'⟩ ∧
      a'.Holds g (Program.globalSymbols natives fs) [] :=
  FuncDecl.predeclareAll_ok filename H hfs W.names_nodup fun d hd =>
    Natives.find?_named_eq_none_iff.mpr (W.names_not_native d hd)

/-- What is declared and checked without a report follows the rules. -/
theorem Program.wellTyped_of_quiet (hp : p.Plain)
    (H : a.Holds g (Symbol.named natives.symbols) [])
    (hpre : (FuncDecl.predeclareAll filename g p.functions a).diagnostics = [])
    (hcheck : (FuncDecl.predeclareAll filename g p.functions a).result = .ok () →
      (p.check g (FuncDecl.predeclareAll filename g p.functions a).arena).diagnostics = []) :
    p.WellTyped natives := by
  have hplain : ∀ d ∈ p.functions, d.Plain := fun d hd => hp _ (Program.mem_functions.mp hd)
  obtain ⟨⟨fs, hfs⟩, hnodup, hnew⟩ :=
    FuncDecl.predeclareAll_quiet H (fun d hd => (hplain d hd).1) hpre
  obtain ⟨a', heq, H'⟩ := FuncDecl.predeclareAll_ok filename H hfs hnodup hnew
  rw [heq] at hcheck
  have hparams : ∀ d ∈ p.functions, ∃ f, d.toFunction = .ok f ∧ (f.params.map (·.name)).Nodup ∧
      ∀ q ∈ f.params, q.ty ≠ .void := by
    intro d hd
    obtain ⟨i, hi, rfl⟩ := List.mem_iff_getElem.mp hd
    have hlen := hfs.length_eq
    exact ⟨fs[i], hfs.get hi (hlen ▸ hi)⟩
  obtain ⟨hfunctions, hstmts⟩ :=
    Program.check_quiet H' (Program.means_globals hfs) hp hparams (hcheck rfl)
  exact ⟨hnodup, fun d hd => Natives.find?_named_eq_none_iff.mp (hnew d hd), hfunctions, hstmts⟩

end Pigeon
