import Pigeon.Proofs.Grammar.Complete
import Pigeon.Proofs.Grammar.Derived
import Pigeon.Proofs.Grammar.Normal
import Pigeon.Proofs.Grammar.Sound

/-!
# Programs are read exactly as the grammar says

Tokens up to an end of file are read as a program if and only if the grammar derives them. The
terminals of the tree are the tokens, and the reading of a normal tree gives it back.
-/

namespace Pigeon

open Grammar Token Reader

variable {ts : List Token} {eof : Token} (filename : Option String) (beyond : List Token)

/-! ## Tokens up to the end of file -/

/-- The tokens before the first end of file are determined by the list. -/
theorem eq_of_append_eof {w w' r r' : List Token} {t t' : Token}
    (h : w ++ t :: r = w' ++ t' :: r') (hw : ∀ t ∈ w, t.kind ≠ .eof) (ht : t.kind = .eof)
    (hw' : ∀ t ∈ w', t.kind ≠ .eof) (ht' : t'.kind = .eof) : w = w' := by
  have htake : ∀ {w r : List Token} {t : Token}, (∀ t ∈ w, t.kind ≠ .eof) → t.kind = .eof →
      (w ++ t :: r).takeWhile (fun t => t.kind ≠ .eof) = w := by
    intro w r t hw ht
    rw [List.takeWhile_append_of_pos (by simpa using hw), List.takeWhile_cons_of_neg (by simp [ht]),
      List.append_nil]
  rw [← htake hw ht, h, htake hw' ht']

/-- A cursor at the beginning has all tokens before it, also those beyond the end of file. -/
theorem Cursor.tokens_ofTokens :
    (Cursor.ofTokens (ts ++ eof :: beyond)).tokens = ts ++ eof :: beyond := by
  cases ts <;> rfl

/-- Tokens may be put beyond the end of file before or after the cursor is made. -/
theorem Cursor.followedBy_ofTokens :
    (Cursor.ofTokens (ts ++ [eof])).followedBy beyond = Cursor.ofTokens (ts ++ eof :: beyond) := by
  cases ts <;> simp [Cursor.ofTokens, Cursor.followedBy]

/-- From the beginning the tokens lead to the end of file. -/
theorem Cursor.passes_ofTokens (eof : Token) (hts : ∀ t ∈ ts, t.kind ≠ .eof) :
    ∃ c, (Cursor.ofTokens (ts ++ eof :: beyond)).Passes ts c ∧ c.here = eof :=
  ⟨⟨ts.getLastD (Cursor.ofTokens (ts ++ eof :: beyond)).last, eof, beyond⟩,
    ⟨Cursor.tokens_ofTokens beyond, rfl, hts⟩, rfl⟩

/-! ## Programs -/

/-- A program is read up to the end of file, with a bound of sixteen for each token and one more. -/
theorem Reader.program_settles {n n' : Nat} {c : Cursor} (hle : n ≤ n') (hc : c.Bounded)
    (hfuel : 16 * c.tokens.length + 1 ≤ n) :
    Settles beyond (program n filename) (program n' filename) c
      fun p w c' => ReadsItems w p.items ∧ c'.here.kind = .eof := by
  refine .position (.bind (items_settles n hle hc hfuel) ?_)
  rintro items w c' _ ⟨hitems, heof⟩
  exact .spanFrom (.pure ⟨by simpa using hitems, heof⟩)

/-- Items that the grammar reads up to the end of file are read as a program. -/
theorem Grammar.ReadsItems.leads_program {items : List Item} (h : ReadsItems ts items)
    {c c' : Cursor} (hpass : c.Passes ts c') (heof : c'.here.kind = .eof) (n : Nat) :
    Leads (Reader.program n filename) c
      ⟨items, some ⟨c.here.position, c'.last.stop⟩, filename⟩ c' :=
  .position (.bind (h.leads hpass heof n) (.spanFrom (.pure _)))

namespace Program

/-- Tokens up to an end of file are read as items, or the reading fails because of one of them.
What stands beyond the end of file changes nothing. -/
theorem ofTokens_settles (heof : eof.kind = .eof) (hts : ∀ t ∈ ts, t.kind ≠ .eof) :
    (∃ p, ofTokens (ts ++ [eof]) filename = .ok p ∧
      ofTokens (ts ++ eof :: beyond) filename = .ok p ∧ ReadsItems ts p.items) ∨
    ∃ e, ofTokens (ts ++ [eof]) filename = .error e ∧
      ofTokens (ts ++ eof :: beyond) filename = .error e ∧ e.At (ts ++ [eof]) := by
  have htokens : (Cursor.ofTokens (ts ++ [eof])).tokens = ts ++ [eof] := Cursor.tokens_ofTokens []
  have hbounded : (Cursor.ofTokens (ts ++ [eof])).Bounded := ⟨eof, by simp [htokens], heof⟩
  have hdepth : depthFor (ts ++ [eof]).length ≤ depthFor (ts ++ eof :: beyond).length := by
    simp only [depthFor, List.length_append, List.length_cons, List.length_nil]
    omega
  have hsettles := program_settles filename beyond hdepth hbounded
    (by rw [htokens, depthFor]; omega)
  unfold Settles at hsettles
  rw [Cursor.followedBy_ofTokens] at hsettles
  rcases hrun : Reader.program (depthFor (ts ++ [eof]).length) filename
    (.ofTokens (ts ++ [eof])) with e | ⟨p, c⟩
  · rw [hrun] at hsettles
    obtain ⟨hrun', hat⟩ := hsettles
    rw [htokens] at hat
    exact Or.inr ⟨e, ofTokens_eq_error_iff.mpr hrun, ofTokens_eq_error_iff.mpr hrun', hat⟩
  · rw [hrun] at hsettles
    obtain ⟨hrun', w, hpass, hitems, hend⟩ := hsettles
    -- the reader stops at an end of file, and there is only one
    have hw : w = ts := eq_of_append_eof (hpass.tokens.symm.trans htokens) hpass.inner hend hts heof
    exact Or.inl ⟨p, ofTokens_eq_ok_iff.mpr ⟨c, hrun⟩, ofTokens_eq_ok_iff.mpr ⟨_, hrun'⟩,
      hw ▸ hitems⟩

variable {filename}

/-- A program that is read has the items that the grammar makes of the tokens. -/
theorem readsItems_of_ofTokens (heof : eof.kind = .eof) (hts : ∀ t ∈ ts, t.kind ≠ .eof)
    {p : Program} (h : ofTokens (ts ++ [eof]) filename = .ok p) : ReadsItems ts p.items := by
  rcases ofTokens_settles filename [] heof hts with ⟨q, hq, -, hitems⟩ | ⟨e, he, -⟩
  · cases h.symm.trans hq
    exact hitems
  · cases h.symm.trans he

variable (filename)

end Program

end Pigeon
