import Pigeon.Proofs.Scope.Layout

/-!
# Frames in a layout

What the operations on a frame do when its blocks lie in the arena as `Arena.Holds` says. A frame
whose blocks have the handles of `f` finds a name where `Blocks.find?` finds it, and fails only for
the reasons that the symbols give.
-/

namespace Pigeon

/-- What is found under a key is an entry with that key. -/
theorem mem_of_lookup {β : Type} {l : List (String × β)} {key : String} {b : β}
    (h : l.lookup key = some b) : (key, b) ∈ l := by
  obtain ⟨before, after, rfl, -⟩ := List.lookup_eq_some_iff.mp h
  simp

namespace Symbols

/-- A symbol that is there after another was stored was there before, or is the other. -/
theorem mem_insert {b : Symbols} {name : String} {s : Symbol} {x : String × Symbol}
    (hx : x ∈ Symbols.insert b name s) : x = (name, s) ∨ x ∈ b := by
  induction b with
  | nil => exact Or.inl (List.mem_singleton.mp hx)
  | cons e b ih =>
      obtain ⟨n, t⟩ := e
      rw [Symbols.insert] at hx
      split at hx
      · next heq =>
          rw [List.mem_cons, heq] at hx
          exact hx.imp_right (List.mem_cons_of_mem _)
      · rw [List.mem_cons] at hx
        rcases hx with rfl | hx
        · exact Or.inr List.mem_cons_self
        · exact (ih hx).imp_right (List.mem_cons_of_mem _)

/-- The symbol that a name has is among the symbols. -/
theorem mem_of_find? {b : Symbols} {name : String} {s : Symbol}
    (h : Symbols.find? b name = some s) : (name, s) ∈ b :=
  mem_of_lookup h

/-- The symbol of a name in a list of symbols that begins with `(k, t)`. -/
theorem find?_cons (k name : String) (t : Symbol) (b : Symbols) :
    Symbols.find? ((k, t) :: b) name = if name = k then some t else Symbols.find? b name := by
  unfold Symbols.find?
  by_cases h : name = k
  · rw [if_pos h, h, List.lookup_cons_self]
  · have hbeq : (name == k) = false := beq_false_of_ne h
    rw [if_neg h, List.lookup_cons, hbeq]

/-- A name is declared if and only if it has a symbol. -/
theorem contains_iff (b : Symbols) (name : String) :
    Symbols.contains b name = true ↔ ∃ s, Symbols.find? b name = some s := by
  induction b with
  | nil => simp [Symbols.contains, Symbols.find?]
  | cons e b ih =>
      obtain ⟨n, s⟩ := e
      unfold Symbols.contains at ih ⊢
      rw [find?_cons, List.any_cons, Bool.or_eq_true, ih]
      by_cases hn : name = n
      · simp [hn]
      · simp [hn, Ne.symm hn]

/-- A name is not declared if and only if it has no symbol. -/
theorem contains_eq_false_iff (b : Symbols) (name : String) :
    Symbols.contains b name = false ↔ Symbols.find? b name = none := by
  rw [← Bool.not_eq_true, contains_iff]
  cases Symbols.find? b name <;> simp

/-- A symbol with a new name is stored after the others. -/
theorem insert_of_find?_eq_none {b : Symbols} {name : String} (s : Symbol)
    (h : Symbols.find? b name = none) : Symbols.insert b name s = b ++ [(name, s)] := by
  induction b with
  | nil => rfl
  | cons e b ih =>
      obtain ⟨n, t⟩ := e
      rw [find?_cons] at h
      by_cases hn : name = n
      · simp [hn] at h
      · rw [if_neg hn] at h
        rw [Symbols.insert, if_neg (Ne.symm hn), ih h]
        rfl

/-- The symbol of a name after a symbol was stored. -/
theorem find?_insert (b : Symbols) (name n : String) (s : Symbol) :
    Symbols.find? (Symbols.insert b name s) n =
      if n = name then some s else Symbols.find? b n := by
  induction b with
  | nil => exact find?_cons name n s []
  | cons e b ih =>
      obtain ⟨k, t⟩ := e
      rw [Symbols.insert]
      by_cases hk : k = name
      · rw [if_pos hk, find?_cons, find?_cons, hk]
        by_cases hn : n = name
        · rw [if_pos hn, if_pos hn]
        · rw [if_neg hn, if_neg hn, if_neg hn]
      · rw [if_neg hk, find?_cons, find?_cons, ih]
        by_cases hn : n = k
        · rw [if_pos hn, if_pos hn, if_neg (hn ▸ hk)]
        · rw [if_neg hn, if_neg hn]

end Symbols

namespace Frame

open Blocks Arena

variable {fr : Frame} {a : Arena} {g h : Handle} {G b : Symbols} {f : Blocks} {F : List Blocks}

theorem innermost_eq (hfr : fr.blocks = handles f) (hf : f ≠ []) :
    fr.innermost = .ok (top g f) := by
  unfold innermost
  cases f with
  | nil => exact absurd rfl hf
  | cons b f =>
      rw [hfr]
      rfl

/-- Opening a block never fails on a frame that has one. -/
theorem enter_eq (hfr : fr.blocks = handles f) (hf : f ≠ []) :
    fr.enter a = .ok ({ fr with blocks := (a.newScope (some (top g f))).1 :: fr.blocks },
      (a.newScope (some (top g f))).2) := by
  unfold enter
  rw [innermost_eq (g := g) hfr hf]
  rfl

/-- Closing a block never fails on a frame that has another one. -/
theorem exit_eq (hfr : fr.blocks = handles ((h, b) :: f)) (hf : f ≠ [])
    (H : a.Holds g G (((h, b) :: f) :: F)) :
    fr.exit a = (.ok (), { fr with blocks := handles f }, a.vacate h) := by
  unfold exit
  cases f with
  | nil => exact absurd rfl hf
  | cons c f =>
      simp only [hfr, handles_cons, H.vacate.1]

/-- All blocks of a frame can be released. -/
theorem releaseAll_eq (H : a.Holds g G (f :: F)) :
    ∃ a', releaseAll (handles f) a = (.ok (), [], a') ∧ a'.Holds g G F := by
  induction f generalizing a with
  | nil => exact ⟨a, rfl, Holds.nil_cons_iff.mp H⟩
  | cons c f ih =>
      obtain ⟨hok, hrest⟩ := H.vacate
      obtain ⟨a', heq, hH⟩ := ih hrest
      refine ⟨a', ?_, hH⟩
      rw [handles_cons, releaseAll, hok]
      exact heq

/-- Closing a frame takes its blocks, and only these, out of the arena. -/
theorem close_eq (hfr : fr.blocks = handles f) (H : a.Holds g G (f :: F)) :
    ∃ a', fr.close a = (.ok (), { fr with blocks := [] }, a') ∧ a'.Holds g G F := by
  obtain ⟨a', heq, hH⟩ := releaseAll_eq H
  refine ⟨a', ?_, hH⟩
  unfold close
  rw [hfr, heq]

/-- A new frame has one block without symbols. -/
theorem openIn_eq (H : a.Holds g G F) :
    ∃ h a', openIn a g = (⟨g, [h]⟩, a') ∧ a.newScope (some g) = (h, a') ∧
      a'.Holds g G ([(h, [])] :: F) := by
  have hnew := (Holds.nil_cons_iff.mpr H).newScope
  exact ⟨_, _, rfl, rfl, hnew⟩

/-- A name can be declared unless the innermost block has it already. -/
theorem checkDeclarable_eq (hfr : fr.blocks = handles ((h, b) :: f))
    (H : a.Holds g G (((h, b) :: f) :: F)) (name : String) :
    fr.checkDeclarable a name =
      if Symbols.contains b name then .error (.scope (.duplicate name)) else .ok h := by
  have hslot := (H.chained ((h, b) :: f) (by simp)).1
  unfold checkDeclarable
  rw [innermost_eq (g := g) hfr (by simp)]
  show (a.get h >>= fun s => _) = _
  rw [get_eq_ok hslot]
  rfl

/-- Where a name is found. -/
theorem locate_eq (hfr : fr.blocks = handles f) (hf : f ≠ []) (H : a.Holds g G (f :: F))
    (name : String) :
    fr.locate a name =
      match Blocks.find? g G name f with
      | some found => .ok found
      | none => .error (.scope (.unknown name)) := by
  unfold locate
  rw [innermost_eq (g := g) hfr hf]
  show (a.locate (some (top g f)) name >>= fun r => _) = _
  rw [H.locate (by simp) name]
  cases Blocks.find? g G name f <;> rfl

end Frame

end Pigeon
