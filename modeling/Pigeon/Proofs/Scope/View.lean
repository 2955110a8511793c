import Pigeon.Proofs.Scope.Frame

/-!
# What a frame shows

The view of a frame lists the names of its blocks with something that is known of each variable. The
place of a name is the block of the frame in which it is found, counted from the innermost one, or
the global scope around the frame. Frames with the same names in the same blocks find a name at the
same place (`Blocks.place_of_view`).
-/

namespace Pigeon

open Blocks

variable {β : Type}

/-- The names of some symbols with what `look` tells about the variables. -/
def Symbols.view (look : Variable → β) (b : Symbols) : List (String × Option β) :=
  b.map fun x => (x.1, match x.2 with
    | .var v => some (look v)
    | .func _ => none)

/-- The blocks of a frame with what `look` tells about the variables, the innermost block first. -/
def Frame.view (look : Variable → β) (fr : Frame) (a : Arena) :
    Except Failure (List (List (String × Option β))) :=
  fr.blocks.mapM fun h => do return (← a.get h).symbols.view look

/-- Where a frame finds a variable: in the block at some position, or in another scope. -/
def Frame.place (fr : Frame) (a : Arena) (name : String) : Except Failure (Nat ⊕ Handle) := do
  let (h, _) ← fr.locateVariable a name
  return match fr.blocks.idxOf? h with
    | some i => .inl i
    | none => .inr h

namespace Blocks

/-- The names of some blocks with what `look` tells about the variables. -/
def view (look : Variable → β) (f : Blocks) : List (List (String × Option β)) :=
  f.map fun b => b.2.view look

/-- The first block that has the name, or the global scope `g` if there is none. -/
def place (g : Handle) (name : String) (f : Blocks) : Nat ⊕ Handle :=
  match f.findIdx? fun b => b.2.contains name with
  | some i => .inl i
  | none => .inr g

/-- A name has its place in the innermost block that has it. -/
theorem place_cons (g h : Handle) (name : String) (b : Symbols) (f : Blocks) :
    place g name ((h, b) :: f) =
      if b.contains name then .inl 0 else (place g name f).map (· + 1) id := by
  unfold place
  rw [List.findIdx?_cons]
  by_cases hb : Symbols.contains b name = true
  · rw [if_pos hb, if_pos hb]
  · rw [if_neg hb, if_neg hb]
    cases List.findIdx? (fun b => Symbols.contains b.2 name) f <;> rfl

/-- The place of a name depends on the names of the blocks only. -/
theorem place_of_view {look : Variable → β} {γ : Type} {look' : Variable → γ} {f f' : Blocks}
    (h : (view look f).map (·.map Prod.fst) = (view look' f').map (·.map Prod.fst)) (g : Handle)
    (name : String) : place g name f = place g name f' := by
  have hnames : ∀ {δ : Type} (look : Variable → δ) (f : Blocks),
      place g name f = match ((view look f).map (·.map Prod.fst)).findIdx? (·.any (· = name)) with
        | some i => .inl i
        | none => .inr g := by
    intro δ look f
    have hcontains : (fun b : Handle × Symbols => b.2.contains name) =
        fun b => ((b.2.view look).map Prod.fst).any (· = name) := by
      funext b
      simp only [Symbols.contains, Symbols.view, List.any_map, List.map_map]
      rfl
    unfold place view
    rw [List.findIdx?_map, List.findIdx?_map, hcontains]
    rfl
  rw [hnames look f, hnames look' f', h]

/-- A name that is found is found at its place. -/
theorem place_of_find? {g h : Handle} {G : Symbols} {name : String} {s : Symbol} {f : Blocks}
    (hnodup : (g :: handles f).Nodup) (hfind : find? g G name f = some (h, s)) :
    (match (handles f).idxOf? h with
      | some i => Sum.inl i
      | none => Sum.inr h) = place g name f := by
  induction f with
  | nil =>
      rw [find?, Option.map_eq_some_iff] at hfind
      obtain ⟨s', -, heq⟩ := hfind
      cases heq
      rfl
  | cons b f ih =>
      obtain ⟨k, b⟩ := b
      rw [place_cons, handles_cons, List.idxOf?_cons]
      rw [find?] at hfind
      cases hb : Symbols.find? b name with
      | some t =>
          rw [hb] at hfind
          cases hfind
          rw [if_pos ((Symbols.contains_iff b name).mpr ⟨s, hb⟩)]
          simp
      | none =>
          rw [hb] at hfind
          rw [handles_cons, List.nodup_cons, List.mem_cons, not_or, List.nodup_cons] at hnodup
          obtain ⟨⟨hgk, hgf⟩, hkf, hf⟩ := hnodup
          have hne : k ≠ h := ne_of_find? hgk hkf hfind
          have hrest := ih (List.nodup_cons.mpr ⟨hgf, hf⟩) hfind
          rw [(Symbols.contains_eq_false_iff b name).mpr hb, ← hrest]
          simp only [beq_eq_false_iff_ne.mpr hne]
          cases (handles f).idxOf? h <;> rfl

end Blocks

namespace Frame

variable {fr : Frame} {a : Arena} {g : Handle} {G : Symbols} {f : Blocks} {F : List Blocks}

/-- All blocks of a frame are found, innermost first. -/
theorem mapM_get_eq (look : Variable → β) (hf : a.Chained g f) :
    (handles f).mapM (fun h => do return (← a.get h).symbols.view look) =
      (.ok (Blocks.view look f) : Except Failure _) := by
  induction f with
  | nil => rfl
  | cons b f ih =>
      obtain ⟨hhead, htail⟩ := hf
      rw [handles_cons, List.mapM_cons, Arena.get_eq_ok hhead, ih htail]
      rfl

/-- A frame shows its blocks. -/
theorem view_eq (look : Variable → β) (hfr : fr.blocks = handles f)
    (H : a.Holds g G (f :: F)) : fr.view look a = .ok (Blocks.view look f) := by
  unfold view
  rw [hfr]
  exact mapM_get_eq look (H.chained f List.mem_cons_self)

/-- A variable that a frame finds is at its place. -/
theorem place_eq (hfr : fr.blocks = handles f) (hf : f ≠ []) (H : a.Holds g G (f :: F))
    {name : String} {h : Handle} {v : Variable} (hv : fr.locateVariable a name = .ok (h, v)) :
    fr.place a name = .ok (Blocks.place g name f) := by
  have hfind : Blocks.find? g G name f = some (h, .var v) := by
    unfold locateVariable at hv
    rw [locate_eq hfr hf H name] at hv
    cases hfound : Blocks.find? g G name f with
    | none =>
        rw [hfound] at hv
        cases hv
    | some found =>
        rw [hfound] at hv
        obtain ⟨k, s⟩ := found
        cases s with
        | var u =>
            cases hv
            rfl
        | func u => cases hv
  unfold place
  rw [hv, ← Blocks.place_of_find? H.nodup_current hfind, hfr]
  rfl

end Frame

end Pigeon
