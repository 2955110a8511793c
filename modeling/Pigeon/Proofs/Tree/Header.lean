import Pigeon.Proofs.Text.Number
import Pigeon.Proofs.Text.Quoted
import Pigeon.Outline

/-!
# Headers of nodes

The line of a node holds its kind, its plain fields and its span. Kinds and the names of fields are
words, and what a plain field holds is quoted text or has no character that ends it. So each of them
is known from the line.
-/

namespace Pigeon

/-! ## Words and data -/

/-- The text is not empty and has letters and underscores only. -/
def Text.IsWord (s : String) : Prop := s.toList ≠ [] ∧ ∀ c ∈ s.toList, c.isAlpha || c = '_'

instance (s : String) : Decidable (Text.IsWord s) :=
  decidable_of_iff (s.toList ≠ [] ∧ s.toList.all fun c => c.isAlpha || c = '_')
    (and_congr_right fun _ => List.all_eq_true)

/-- The text of plain data: quoted text, or characters that are no quotes and end no data. -/
inductive Text.IsDatum : List Char → Prop
  | quoted (cs : List Char) : IsDatum (quoteChars cs)
  | bare {cs : List Char} : (∀ c ∈ cs, c ∉ [',', ')', '\'', '"', '\n']) → IsDatum cs

namespace Text

theorem IsWord.newline_not_mem {s : String} (h : IsWord s) : '\n' ∉ s.toList := fun hmem =>
  absurd (h.2 _ hmem) (by decide)

/-- A line with a word behind its margin is indented by the margin. -/
theorem IsWord.exists_cons {s : String} (h : IsWord s) :
    ∃ c cs, s.toList = c :: cs ∧ c ≠ ' ' := by
  obtain ⟨c, cs, hcs⟩ := List.exists_cons_of_ne_nil h.1
  refine ⟨c, cs, hcs, ?_⟩
  rintro rfl
  exact absurd (h.2 ' ' (by rw [hcs]; exact List.mem_cons_self)) (by decide)

/-- A word is determined, and what follows it, if this does not go on with it. -/
theorem IsWord.append_inj {s s' : String} (h : IsWord s) (h' : IsWord s') {r r' : List Char}
    (hr : ∀ c ∈ r.head?, (c.isAlpha || c = '_') = false)
    (hr' : ∀ c ∈ r'.head?, (c.isAlpha || c = '_') = false)
    (heq : s.toList ++ r = s'.toList ++ r') : s = s' ∧ r = r' := by
  obtain ⟨hs, hr⟩ := append_inj_of (p := fun c => c.isAlpha || c = '_') h.2 h'.2 hr hr' heq
  exact ⟨String.toList_inj.mp hs, hr⟩

/-- The text of a datum has no line break in it. -/
theorem IsDatum.newline_not_mem {cs : List Char} (h : IsDatum cs) : '\n' ∉ cs := by
  cases h with
  | quoted cs => exact newline_not_mem_quoteChars cs
  | bare h => exact fun hmem => h _ hmem (by decide)

/-- Quoted text is no other data, as that does not begin with a quote. -/
theorem quoteChars_append_ne {cs cs' r r' : List Char} {d : Char} (hd : d ∈ [',', ')'])
    (h : ∀ c ∈ cs', c ∉ [',', ')', '\'', '"', '\n']) :
    quoteChars cs ++ r ≠ cs' ++ d :: r' := by
  intro heq
  have hquote := quoteFor_mem cs
  cases cs' with
  | nil =>
      obtain ⟨hhead, -⟩ := List.cons.inj heq
      rw [hhead] at hquote
      simp only [List.mem_cons, List.not_mem_nil, or_false] at hd
      rcases hd with rfl | rfl <;> exact absurd hquote (by decide)
  | cons c cs' =>
      obtain ⟨hhead, -⟩ := List.cons.inj heq
      rw [hhead] at hquote
      exact h c List.mem_cons_self (by simp at hquote ⊢; tauto)

/-- Plain data is determined, and what follows it, if this begins with a comma or a bracket. -/
theorem IsDatum.append_inj {cs cs' r r' : List Char} (h : IsDatum cs) (h' : IsDatum cs')
    {d d' : Char} (hd : d ∈ [',', ')']) (hd' : d' ∈ [',', ')'])
    (heq : cs ++ d :: r = cs' ++ d' :: r') : cs = cs' ∧ d :: r = d' :: r' := by
  cases h with
  | quoted cs =>
      cases h' with
      | quoted cs' =>
          obtain ⟨rfl, hr⟩ := quoteChars_append_inj heq
          exact ⟨rfl, hr⟩
      | bare h' => exact absurd heq (quoteChars_append_ne hd' h')
  | bare h =>
      cases h' with
      | quoted cs' => exact absurd heq.symm (quoteChars_append_ne hd h)
      | bare h' =>
          refine append_inj_of (p := fun c => c ∉ [',', ')', '\'', '"', '\n'])
            (fun c hc => decide_eq_true (h c hc)) (fun c hc => decide_eq_true (h' c hc)) ?_ ?_ heq
          · rintro c ⟨⟩
            simp at hd ⊢
            tauto
          · rintro c ⟨⟩
            simp at hd' ⊢
            tauto

end Text

/-! ## Spans and plain fields -/

/-- The characters of a span behind a node. -/
def Span.headerChars : Option Span → List Char
  | none => []
  | some s => s.outlineText.toList

namespace Span

/-- A span is shown by its four numbers. -/
theorem toList_outlineText (s : Span) : s.outlineText.toList =
    ' ' :: '@' :: (toString s.start.line).toList ++ ':' :: ((toString s.start.column).toList ++
      '-' :: ((toString s.stop.line).toList ++ ':' :: (toString s.stop.column).toList)) := by
  simp only [outlineText, String.toList_append, List.append_assoc, List.cons_append]
  rfl

/-- A span is shown on one line. -/
theorem newline_not_mem_headerChars (s : Option Span) : '\n' ∉ headerChars s := by
  have hnumber : ∀ n : Int, '\n' ∉ (toString n).toList := fun n h =>
    absurd (Text.toString_subset n h) (by decide)
  cases s with
  | none => exact List.not_mem_nil
  | some s =>
      simp only [headerChars, toList_outlineText, List.mem_append, List.mem_cons, hnumber]
      decide

/-- The text of a span determines it. -/
theorem headerChars_inj {s t : Option Span} (h : headerChars s = headerChars t) : s = t := by
  cases s with
  | none =>
      cases t with
      | none => rfl
      | some t => simp [headerChars, toList_outlineText] at h
  | some s =>
      cases t with
      | none => simp [headerChars, toList_outlineText] at h
      | some t =>
          have hdigit : ∀ (d : Char) (r : List Char), d.isDigit = false →
              ∀ c ∈ (d :: r).head?, c.isDigit = false := by
            rintro d r hd c ⟨⟩
            exact hd
          simp only [headerChars, toList_outlineText, List.cons_append, List.cons.injEq,
            true_and] at h
          obtain ⟨hline, h⟩ := Text.toString_append_inj (hdigit _ _ rfl) (hdigit _ _ rfl) h
          obtain ⟨hcolumn, h⟩ := Text.toString_append_inj (hdigit _ _ rfl) (hdigit _ _ rfl)
            (List.cons.inj h).2
          obtain ⟨hline', h⟩ := Text.toString_append_inj (hdigit _ _ rfl) (hdigit _ _ rfl)
            (List.cons.inj h).2
          have hcolumn' := Text.toString_inj (String.toList_inj.mp (List.cons.inj h).2)
          obtain ⟨⟨_, _⟩, ⟨_, _⟩⟩ := s
          obtain ⟨⟨_, _⟩, ⟨_, _⟩⟩ := t
          simp only at hline hcolumn hline' hcolumn'
          rw [hline, hcolumn, hline', hcolumn']

end Span

/-- A plain field: its name, and the text of what it holds. -/
structure Attribute where
  name : String
  shown : String

namespace Attribute

/-- The field can be read back. -/
structure Legible (a : Attribute) : Prop where
  name : Text.IsWord a.name
  shown : Text.IsDatum a.shown.toList

/-- The characters of a field. -/
def chars (a : Attribute) : List Char := a.name.toList ++ '=' :: a.shown.toList

/-- The characters of fields behind other ones, up to the closing bracket. -/
def furtherChars : List Attribute → List Char
  | [] => [')']
  | a :: more => ',' :: ' ' :: (a.chars ++ furtherChars more)

/-- The characters of all fields between brackets, if there are any. -/
def allChars : List Attribute → List Char
  | [] => []
  | a :: more => '(' :: (a.chars ++ furtherChars more)

variable {a b : Attribute} {as bs : List Attribute} {r r' : List Char}

/-- What follows an attribute begins with a comma or a parenthesis. -/
theorem furtherChars_cons (as : List Attribute) :
    ∃ d ds, furtherChars as = d :: ds ∧ d ∈ [',', ')'] := by
  cases as with
  | nil => exact ⟨_, _, rfl, by decide⟩
  | cons a as => exact ⟨_, _, rfl, by decide⟩

/-- Where an attribute ends can be seen from the characters, as neither a comma nor a parenthesis
can be part of what is open there. -/
theorem Legible.append_inj (ha : a.Legible) (hb : b.Legible)
    (h : a.chars ++ (furtherChars as ++ r) = b.chars ++ (furtherChars bs ++ r')) :
    a = b ∧ furtherChars as ++ r = furtherChars bs ++ r' := by
  have hequals : ∀ x : List Char, ∀ c ∈ ('=' :: x).head?, (c.isAlpha || c = '_') = false := by
    rintro x c ⟨⟩
    rfl
  obtain ⟨d, ds, hd, hdmem⟩ := furtherChars_cons as
  obtain ⟨e, es, he, hemem⟩ := furtherChars_cons bs
  rw [hd, he] at h ⊢
  simp only [chars, List.append_assoc, List.cons_append] at h ⊢
  obtain ⟨hname, hrest⟩ := ha.name.append_inj hb.name (hequals _) (hequals _) h
  obtain ⟨hshown, hmore⟩ := ha.shown.append_inj hb.shown hdmem hemem (List.cons.inj hrest).2
  refine ⟨?_, hmore⟩
  obtain ⟨_, _⟩ := a
  obtain ⟨_, _⟩ := b
  rw [Attribute.mk.injEq]
  exact ⟨hname, String.toList_inj.mp hshown⟩

/-- Legible attributes can be read off the characters behind each other. -/
theorem furtherChars_append_inj (has : ∀ a ∈ as, a.Legible) (hbs : ∀ b ∈ bs, b.Legible)
    (h : furtherChars as ++ r = furtherChars bs ++ r') : as = bs ∧ r = r' := by
  induction as generalizing bs with
  | nil =>
      cases bs with
      | nil => exact ⟨rfl, (List.cons.inj h).2⟩
      | cons b bs => exact absurd (List.cons.inj h).1 (by decide)
  | cons a as ih =>
      cases bs with
      | nil => exact absurd (List.cons.inj h).1 (by decide)
      | cons b bs =>
          simp only [furtherChars, List.cons_append, List.append_assoc, List.cons.injEq,
            true_and] at h
          obtain ⟨rfl, hmore⟩ :=
            (has a List.mem_cons_self).append_inj (hbs b List.mem_cons_self) h
          obtain ⟨rfl, hr⟩ := ih (fun a ha => has a (List.mem_cons_of_mem _ ha))
            (fun b hb => hbs b (List.mem_cons_of_mem _ hb)) hmore
          exact ⟨rfl, hr⟩

/-- The text of fields determines them, and what follows if this is no bracket. -/
theorem allChars_append_inj (has : ∀ a ∈ as, a.Legible) (hbs : ∀ b ∈ bs, b.Legible)
    (hr : r.head? ≠ some '(') (hr' : r'.head? ≠ some '(')
    (h : allChars as ++ r = allChars bs ++ r') : as = bs ∧ r = r' := by
  cases as with
  | nil =>
      cases bs with
      | nil => exact ⟨rfl, h⟩
      | cons b bs => exact absurd (congrArg List.head? h) hr
  | cons a as =>
      cases bs with
      | nil => exact absurd (congrArg List.head? h).symm hr'
      | cons b bs =>
          simp only [allChars, List.cons_append, List.append_assoc, List.cons.injEq,
            true_and] at h
          obtain ⟨rfl, hmore⟩ :=
            (has a List.mem_cons_self).append_inj (hbs b List.mem_cons_self) h
          obtain ⟨rfl, hr⟩ := furtherChars_append_inj
            (fun a ha => has a (List.mem_cons_of_mem _ ha))
            (fun b hb => hbs b (List.mem_cons_of_mem _ hb)) hmore
          exact ⟨rfl, hr⟩

/-- A legible attribute is shown on one line. -/
theorem Legible.newline_not_mem (ha : a.Legible) : '\n' ∉ a.chars := by
  simp only [chars, List.mem_append, List.mem_cons, ha.name.newline_not_mem,
    ha.shown.newline_not_mem]
  decide

/-- Legible attributes behind the first one are shown on one line. -/
theorem newline_not_mem_furtherChars (has : ∀ a ∈ as, a.Legible) : '\n' ∉ furtherChars as := by
  induction as with
  | nil => decide
  | cons a as ih =>
      simp only [furtherChars, List.mem_cons, List.mem_append,
        (has a List.mem_cons_self).newline_not_mem,
        ih fun a ha => has a (List.mem_cons_of_mem _ ha)]
      decide

/-- All legible attributes of a node are shown on one line. -/
theorem newline_not_mem_allChars (has : ∀ a ∈ as, a.Legible) : '\n' ∉ allChars as := by
  cases as with
  | nil => exact List.not_mem_nil
  | cons a as =>
      simp only [allChars, List.mem_cons, List.mem_append,
        (has a List.mem_cons_self).newline_not_mem,
        newline_not_mem_furtherChars fun a ha => has a (List.mem_cons_of_mem _ ha)]
      decide

end Attribute

end Pigeon
