import Pigeon.Proofs.Tree.Header

/-!
# Sketches

A *sketch* is what the lines of an outline show of it: nodes with their kinds, their plain fields
and their spans, and below each node the nodes in its other fields. It is known from the lines, since
every line is indented by the depth of its node (`Sketch.lines_append_inj`).
-/

namespace Pigeon

/-! ## Sketches -/

mutual

/-- A node as its lines show it. -/
inductive Sketch where
  | mk (kind : String) (attributes : List Attribute) (span : Option Span)
      (parts : List SketchPart)

/-- A field of a node that holds nodes. -/
inductive SketchPart where
  | mk (label : String) (nodes : List Sketch)

end

namespace Sketch

/-- The characters of the line of a node behind its margin. -/
def headerChars (kind : String) (attributes : List Attribute) (span : Option Span) : List Char :=
  kind.toList ++ (Attribute.allChars attributes ++ Span.headerChars span)

mutual

/-- The lines of a sketch whose first line is indented by the given number of blanks. -/
def lines (margin : Nat) : Sketch → List (List Char)
  | .mk kind attributes span parts =>
    (List.replicate margin ' ' ++ headerChars kind attributes span) :: partLines margin parts

/-- The lines of sketches that follow each other. -/
def linesAll (margin : Nat) : List Sketch → List (List Char)
  | [] => []
  | s :: ss => s.lines margin ++ linesAll margin ss

/-- The lines of the parts of a node. -/
def partLines (margin : Nat) : List SketchPart → List (List Char)
  | [] => []
  | .mk label nodes :: parts =>
    (List.replicate (margin + 2) ' ' ++ (label.toList ++ [':'])) ::
      (linesAll (margin + 4) nodes ++ partLines margin parts)

end

mutual

/-- Kinds, names and labels are words, and plain fields hold data. -/
def Legible : Sketch → Prop
  | .mk kind attributes _ parts =>
    Text.IsWord kind ∧ (∀ a ∈ attributes, a.Legible) ∧ PartsLegible parts

/-- All sketches of a list are legible. -/
def AllLegible : List Sketch → Prop
  | [] => True
  | s :: ss => s.Legible ∧ AllLegible ss

/-- All parts of a node are legible. -/
def PartsLegible : List SketchPart → Prop
  | [] => True
  | .mk label nodes :: parts => Text.IsWord label ∧ AllLegible nodes ∧ PartsLegible parts

end

/-! ## Lines are read back -/

/-- The line of a node determines the kind, the plain fields and the span. -/
theorem headerChars_inj {kind kind' : String} {as bs : List Attribute} {sp sp' : Option Span}
    (hkind : Text.IsWord kind) (hkind' : Text.IsWord kind') (has : ∀ a ∈ as, a.Legible)
    (hbs : ∀ b ∈ bs, b.Legible) (h : headerChars kind as sp = headerChars kind' bs sp') :
    kind = kind' ∧ as = bs ∧ sp = sp' := by
  have hspan : ∀ sp : Option Span, some '(' ≠ (Span.headerChars sp).head? := by
    rintro (_ | sp)
    · nofun
    · simp [Span.headerChars, Span.toList_outlineText]
  have hrest : ∀ (as : List Attribute) (sp : Option Span),
      ∀ c ∈ (Attribute.allChars as ++ Span.headerChars sp).head?,
        (c.isAlpha || c = '_') = false := by
    rintro (_ | ⟨a, as⟩) (_ | sp) c hc
    · cases hc
    · simp only [Attribute.allChars, Span.headerChars, Span.toList_outlineText] at hc
      cases hc
      rfl
    · cases hc
      rfl
    · cases hc
      rfl
  obtain ⟨rfl, hfields⟩ := hkind.append_inj hkind' (hrest as sp) (hrest bs sp') h
  obtain ⟨rfl, hsp⟩ := Attribute.allChars_append_inj has hbs (hspan sp).symm (hspan sp').symm hfields
  exact ⟨rfl, rfl, Span.headerChars_inj hsp⟩

/-- The number of blanks at the beginning of a line. -/
def depth (line : List Char) : Nat := (line.takeWhile (· = ' ')).length

/-- A word after blanks is as deep as there are blanks. -/
theorem depth_word {w : String} (hw : Text.IsWord w) (n : Nat) (r : List Char) :
    depth (List.replicate n ' ' ++ (w.toList ++ r)) = n := by
  obtain ⟨c, cs, hcs, hne⟩ := hw.exists_cons
  rw [depth, hcs, List.takeWhile_append_of_pos (by simp), List.cons_append,
    List.takeWhile_cons_of_neg (by simpa using hne)]
  simp

/-- The first line, if there is one, is indented by less than the given number of blanks. -/
def Above (n : Nat) (ls : List (List Char)) : Prop := ∀ l ∈ ls.head?, depth l < n

theorem above_nil (n : Nat) : Above n [] := by simp [Above]

/-- What stands above a depth stands above a larger one. -/
theorem Above.mono {m n : Nat} {ls : List (List Char)} (h : Above m ls) (hle : m ≤ n) :
    Above n ls := fun l hl => Nat.lt_of_lt_of_le (h l hl) hle

/-- The first line of a legible sketch stands at its margin. -/
theorem Legible.exists_lines {s : Sketch} (h : s.Legible) (n : Nat) :
    ∃ l ls, s.lines n = l :: ls ∧ depth l = n := by
  obtain ⟨kind, as, sp, parts⟩ := s
  exact ⟨_, _, rfl, depth_word h.1 n _⟩

/-- Sketches at a margin stand above the next depth, and so does what follows them. -/
theorem above_linesAll {ss : List Sketch} (h : AllLegible ss) {n : Nat} {r : List (List Char)}
    (hr : Above (n + 1) r) : Above (n + 1) (linesAll n ss ++ r) := by
  cases ss with
  | nil => exact hr
  | cons s ss =>
      obtain ⟨l, ls, hls, hl⟩ := h.1.exists_lines n
      rw [linesAll, hls]
      rintro _ ⟨⟩
      omega

/-- The labels of parts stand above what is deeper by one. -/
theorem above_partLines {ps : List SketchPart} (h : PartsLegible ps) {n : Nat}
    {r : List (List Char)} (hr : Above (n + 3) r) : Above (n + 3) (partLines n ps ++ r) := by
  cases ps with
  | nil => exact hr
  | cons p ps =>
      obtain ⟨label, nodes⟩ := p
      rw [partLines]
      rintro _ ⟨⟩
      rw [depth_word h.1]
      omega

mutual

/-- The lines of a legible sketch determine it, and what follows, if this is less indented than the
parts of the sketch. -/
theorem lines_append_inj : ∀ {s t : Sketch}, s.Legible → t.Legible → ∀ {n : Nat}
    {r r' : List (List Char)}, Above (n + 2) r → Above (n + 2) r' →
      s.lines n ++ r = t.lines n ++ r' → s = t ∧ r = r'
  | .mk kind as sp ps, .mk kind' bs sp' qs, hs, ht, n, r, r', hr, hr', h => by
      obtain ⟨hkind, has, hps⟩ := hs
      obtain ⟨hkind', hbs, hqs⟩ := ht
      simp only [lines, List.cons_append, List.cons.injEq] at h
      obtain ⟨rfl, rfl, rfl⟩ :=
        headerChars_inj hkind hkind' has hbs (List.append_cancel_left h.1)
      obtain ⟨rfl, hrest⟩ := partLines_append_inj hps hqs hr hr' h.2
      exact ⟨rfl, hrest⟩

/-- The lines of legible sketches determine them, and what follows, if this is less indented. -/
theorem linesAll_append_inj : ∀ {ss ts : List Sketch}, AllLegible ss → AllLegible ts →
    ∀ {n : Nat} {r r' : List (List Char)}, Above n r → Above n r' →
      linesAll n ss ++ r = linesAll n ts ++ r' → ss = ts ∧ r = r'
  | [], [], _, _, _, _, _, _, _, h => ⟨rfl, h⟩
  | [], t :: ts, _, ht, n, r, r', hr, _, h => by
      -- what follows would begin with a line as deep as that of a node
      obtain ⟨l, ls, hls, hl⟩ := ht.1.exists_lines n
      rw [linesAll, linesAll, hls] at h
      have hlt := hr l (by rw [List.nil_append] at h; rw [h]; rfl)
      omega
  | s :: ss, [], hs, _, n, r, r', _, hr', h => by
      obtain ⟨l, ls, hls, hl⟩ := hs.1.exists_lines n
      rw [linesAll, linesAll, hls] at h
      have hlt := hr' l (by rw [List.nil_append] at h; rw [← h]; rfl)
      omega
  | s :: ss, t :: ts, hs, ht, n, r, r', hr, hr', h => by
      rw [linesAll, linesAll, List.append_assoc, List.append_assoc] at h
      obtain ⟨rfl, hmore⟩ := lines_append_inj hs.1 ht.1
        ((above_linesAll hs.2 (hr.mono (Nat.le_succ n))).mono (Nat.le_succ _))
        ((above_linesAll ht.2 (hr'.mono (Nat.le_succ n))).mono (Nat.le_succ _)) h
      obtain ⟨rfl, hrest⟩ := linesAll_append_inj hs.2 ht.2 hr hr' hmore
      exact ⟨rfl, hrest⟩

/-- The lines of the legible parts of a node determine them, and what follows, if this is less
indented. -/
theorem partLines_append_inj : ∀ {ps qs : List SketchPart}, PartsLegible ps → PartsLegible qs →
    ∀ {n : Nat} {r r' : List (List Char)}, Above (n + 2) r → Above (n + 2) r' →
      partLines n ps ++ r = partLines n qs ++ r' → ps = qs ∧ r = r'
  | [], [], _, _, _, _, _, _, _, h => ⟨rfl, h⟩
  | [], .mk label nodes :: qs, _, hq, n, r, r', hr, _, h => by
      -- what follows would begin with a label
      have hlt := hr _ (by rw [partLines, List.nil_append] at h; rw [h]; rfl)
      rw [depth_word hq.1] at hlt
      omega
  | .mk label nodes :: ps, [], hp, _, n, r, r', _, hr', h => by
      have hlt := hr' _ (by rw [partLines, partLines, List.nil_append] at h; rw [← h]; rfl)
      rw [depth_word hp.1] at hlt
      omega
  | .mk label nodes :: ps, .mk label' nodes' :: qs, hp, hq, n, r, r', hr, hr', h => by
      simp only [partLines, List.cons_append, List.append_assoc, List.cons.injEq] at h
      obtain ⟨hlabel, hmore⟩ := h
      obtain rfl : label = label' := String.toList_inj.mp
        (List.append_cancel_right (List.append_cancel_left hlabel))
      obtain ⟨rfl, hparts⟩ := linesAll_append_inj hp.2.1 hq.2.1
        ((above_partLines hp.2.2 (hr.mono (Nat.le_succ _))).mono (Nat.le_succ _))
        ((above_partLines hq.2.2 (hr'.mono (Nat.le_succ _))).mono (Nat.le_succ _)) hmore
      obtain ⟨rfl, hrest⟩ := partLines_append_inj hp.2.2 hq.2.2 hr hr' hparts
      exact ⟨rfl, hrest⟩

end

mutual

/-- No line of a legible sketch holds a line feed. -/
theorem newline_not_mem_lines : ∀ {s : Sketch}, s.Legible → ∀ (n : Nat),
    ∀ l ∈ s.lines n, '\n' ∉ l
  | .mk kind as sp ps, h, n => by
      rintro l (_ | ⟨_, hl⟩)
      · simp only [headerChars, List.mem_append, List.mem_replicate, h.1.newline_not_mem,
          Attribute.newline_not_mem_allChars h.2.1, Span.newline_not_mem_headerChars]
        simp
      · exact newline_not_mem_partLines h.2.2 n l hl

/-- No line of legible sketches has a line break in it. -/
theorem newline_not_mem_linesAll : ∀ {ss : List Sketch}, AllLegible ss → ∀ (n : Nat),
    ∀ l ∈ linesAll n ss, '\n' ∉ l
  | [], _, _ => nofun
  | s :: ss, h, n => by
      intro l hl
      rcases List.mem_append.mp hl with hl | hl
      · exact newline_not_mem_lines h.1 n l hl
      · exact newline_not_mem_linesAll h.2 n l hl

/-- No line of legible parts has a line break in it. -/
theorem newline_not_mem_partLines : ∀ {ps : List SketchPart}, PartsLegible ps → ∀ (n : Nat),
    ∀ l ∈ partLines n ps, '\n' ∉ l
  | [], _, _ => nofun
  | .mk label nodes :: ps, h, n => by
      rintro l (_ | ⟨_, hl⟩)
      · simp only [List.mem_append, List.mem_replicate, h.1.newline_not_mem]
        simp
      · rcases List.mem_append.mp hl with hl | hl
        · exact newline_not_mem_linesAll h.2.1 (n + 4) l hl
        · exact newline_not_mem_partLines h.2.2 n l hl

end

/-- The text of a legible sketch determines it. -/
theorem eq_of_text_eq {s t : Sketch} (hs : s.Legible) (ht : t.Legible)
    (h : ['\n'].intercalate (s.lines 0) = ['\n'].intercalate (t.lines 0)) : s = t := by
  have hlines : ∀ {s : Sketch}, s.Legible →
      List.splitOn '\n' (['\n'].intercalate (s.lines 0)) = s.lines 0 := by
    intro s hs
    obtain ⟨l, ls, hls, -⟩ := hs.exists_lines 0
    exact List.splitOn_intercalate '\n' (newline_not_mem_lines hs 0) (by rw [hls]; nofun)
  have heq : s.lines 0 ++ [] = t.lines 0 ++ [] := by rw [← hlines hs, h, hlines ht]
  exact (lines_append_inj hs ht (above_nil 2) (above_nil 2) heq).1

end Sketch

/-! ## Sketches of outlines -/

/-- The plain fields of a node. -/
def OutlineField.attributes : List OutlineField → List Attribute
  | [] => []
  | .mk name (.leaf shown) :: fields => ⟨name, shown⟩ :: OutlineField.attributes fields
  | .mk _ _ :: fields => OutlineField.attributes fields

mutual

/-- The nodes that the lines of an outline show, with or without spans. -/
def Outline.sketch (spans : Bool) : Outline → List Sketch
  | .leaf shown => [.mk shown [] none []]
  | .list items => Outline.sketchAll spans items
  | .node kind fields span =>
    [.mk kind (OutlineField.attributes fields) (if spans then span else none)
      (OutlineField.sketchParts spans fields)]

/-- The nodes that the lines of a list of outlines show. -/
def Outline.sketchAll (spans : Bool) : List Outline → List Sketch
  | [] => []
  | o :: os => o.sketch spans ++ Outline.sketchAll spans os

/-- The other fields of a node, empty lists apart. -/
def OutlineField.sketchParts (spans : Bool) : List OutlineField → List SketchPart
  | [] => []
  | .mk _ (.leaf _) :: fields => OutlineField.sketchParts spans fields
  | .mk _ (.list []) :: fields => OutlineField.sketchParts spans fields
  | .mk name content :: fields =>
    .mk name (content.sketch spans) :: OutlineField.sketchParts spans fields

end

/-! ## The lines of an outline are those of its sketch -/

/-- The texts of the plain fields are the characters of the attributes. -/
theorem OutlineField.filterMap_attribute? (fields : List OutlineField) :
    (fields.filterMap attribute?).map String.toList = (attributes fields).map (·.chars) := by
  induction fields with
  | nil => rfl
  | cons f fields ih =>
      obtain ⟨name, content⟩ := f
      cases content with
      | leaf shown =>
          have hchars : (name ++ "=" ++ shown).toList = (Attribute.mk name shown).chars := by
            simp [Attribute.chars]
          have hsome : attribute? (.mk name (.leaf shown)) = some (name ++ "=" ++ shown) := rfl
          rw [List.filterMap_cons_some hsome, List.map_cons, ih, hchars]
          rfl
      | list items =>
          rw [List.filterMap_cons_none rfl, ih]
          rfl
      | node kind inner span =>
          rw [List.filterMap_cons_none rfl, ih]
          rfl

/-- Attributes with commas between them are the first one and then each further one behind its
comma. -/
theorem Attribute.intercalate_chars (a : Attribute) (as : List Attribute) :
    [',', ' '].intercalate (a.chars :: as.map (·.chars)) ++ [')'] =
      a.chars ++ furtherChars as := by
  induction as generalizing a with
  | nil => simp [furtherChars]
  | cons b as ih =>
      rw [List.map_cons, List.intercalate_cons_cons, List.append_assoc, List.append_assoc, ih]
      rfl

/-- The text of the plain fields is that of the attributes. -/
theorem Outline.toList_attributesText (fields : List OutlineField) :
    (attributesText fields).toList = Attribute.allChars (OutlineField.attributes fields) := by
  have hmap := OutlineField.filterMap_attribute? fields
  unfold attributesText
  cases hshown : fields.filterMap OutlineField.attribute? with
  | nil =>
      rw [hshown] at hmap
      rw [List.map_eq_nil_iff.mp hmap.symm]
      rfl
  | cons shown more =>
      rw [hshown] at hmap
      obtain ⟨a, as, has, -, -⟩ := List.map_eq_cons_iff.mp hmap.symm
      rw [has] at hmap ⊢
      simp only [String.toList_append, String.toList_intercalate, hmap, List.map_cons,
        List.append_assoc]
      exact congrArg ('(' :: ·) (Attribute.intercalate_chars a as)

/-- The header of a node is that of its sketch. -/
theorem Outline.toList_header (spans : Bool) (kind : String) (fields : List OutlineField)
    (span : Option Span) : (header spans kind fields span).toList =
      Sketch.headerChars kind (OutlineField.attributes fields) (if spans then span else none) := by
  have hspan : (if spans then (span.map Span.outlineText).getD "" else "").toList =
      Span.headerChars (if spans then span else none) := by
    cases spans <;> cases span <;> rfl
  rw [header, String.toList_append, String.toList_append, toList_attributesText, hspan,
    List.append_assoc]
  rfl

/-- Each level of indentation is two blanks. -/
theorem Outline.toList_margin (indent : Nat) :
    (margin indent).toList = List.replicate (2 * indent) ' ' := by
  rw [margin, String.toList_ofList, show (2 * (indent : Int)).toNat = 2 * indent by omega]

/-- The label of a field stands two blanks behind the margin of its node. -/
theorem Outline.toList_label (indent : Nat) (name : String) :
    (margin indent ++ "  " ++ name ++ ":").toList =
      List.replicate (2 * indent + 2) ' ' ++ (name.toList ++ [':']) := by
  simp [toList_margin, List.replicate_add]

/-- The lines of sketches in a row are those of the first ones and then those of the others. -/
theorem Sketch.linesAll_append (margin : Nat) (ss ts : List Sketch) :
    linesAll margin (ss ++ ts) = linesAll margin ss ++ linesAll margin ts := by
  induction ss with
  | nil => rfl
  | cons s ss ih => rw [List.cons_append, linesAll, linesAll, ih, List.append_assoc]

mutual

/-- The lines of an outline are those of its sketch, by induction on the outline. -/
theorem Outline.map_toList_lines (spans : Bool) : ∀ (o : Outline) (indent : Nat),
    (o.lines spans indent).map String.toList =
      Sketch.linesAll (2 * indent) (o.sketch spans)
  | .leaf shown, indent => by
      simp [lines, sketch, Sketch.linesAll, Sketch.lines, Sketch.headerChars, Sketch.partLines,
        toList_margin, Attribute.allChars, Span.headerChars]
  | .list items, indent => Outline.map_toList_linesAll spans items indent
  | .node kind fields span, indent => by
      simp [lines, sketch, Sketch.linesAll, Sketch.lines, toList_margin, toList_header,
        Outline.map_toList_fieldLines spans fields indent]

/-- The same of outlines in a row. -/
theorem Outline.map_toList_linesAll (spans : Bool) : ∀ (os : List Outline) (indent : Nat),
    (linesAll spans indent os).map String.toList =
      Sketch.linesAll (2 * indent) (sketchAll spans os)
  | [], _ => rfl
  | o :: os, indent => by
      simp [linesAll, sketchAll, Sketch.linesAll_append, Outline.map_toList_lines spans o indent,
        Outline.map_toList_linesAll spans os indent]

/-- The same of the fields that hold nodes. -/
theorem Outline.map_toList_fieldLines (spans : Bool) : ∀ (fields : List OutlineField)
    (indent : Nat), (fieldLines spans indent fields).map String.toList =
      Sketch.partLines (2 * indent) (OutlineField.sketchParts spans fields)
  | [], _ => rfl
  | .mk _ (.leaf _) :: fields, indent => Outline.map_toList_fieldLines spans fields indent
  | .mk _ (.list []) :: fields, indent => Outline.map_toList_fieldLines spans fields indent
  | .mk name (.list (o :: os)) :: fields, indent => by
      have hcontent := Outline.map_toList_lines spans (.list (o :: os)) (indent + 2)
      have hfields := Outline.map_toList_fieldLines spans fields indent
      simp only [fieldLines, OutlineField.sketchParts, Sketch.partLines, List.map_cons,
        List.cons_append, List.map_append, toList_label, hfields]
      rw [← show 2 * (indent + 2) = 2 * indent + 4 by omega, ← hcontent]
      rfl
  | .mk name (.node kind inner span) :: fields, indent => by
      have hcontent := Outline.map_toList_lines spans (.node kind inner span) (indent + 2)
      have hfields := Outline.map_toList_fieldLines spans fields indent
      simp only [fieldLines, OutlineField.sketchParts, Sketch.partLines, List.map_cons,
        List.cons_append, List.map_append, toList_label, hfields]
      rw [← show 2 * (indent + 2) = 2 * indent + 4 by omega, ← hcontent]
      rfl

end

end Pigeon
