import Pigeon.Grammar.Program
import Pigeon.Proofs.Grammar.Cursor
import Pigeon.Proofs.Token.Spelling
import Pigeon.Proofs.Tree.Plain
import Pigeon.Session

/-!
# Programs that were read are plain

A scan gives only *genuine* tokens: those that are spelled as their kind demands. A reader that
stands on genuine tokens takes its operators and type names from them, so the tree that it gives is
plain.

`Reader.Ends r c P` says that the reader `r`, if it reads something at the cursor `c`, ends with a
result and a cursor that satisfy `P`.
-/

namespace Pigeon

/-! ## Genuine tokens -/

/-- The token is spelled as its kind demands. -/
def Token.Genuine (t : Token) : Prop :=
  (t.text.toList, t.kind) ∈ Token.symbols ∨ (t.text, t.kind) ∈ Token.keywords ∨
    t.kind ∈ [.eof, .ident, .int, .float, .string]

namespace Token

/-- A lexeme is spelled as its kind demands. -/
theorem Lexes.genuine {kind : TokenKind} {text spelling rest : List Char}
    (h : Lexes kind text spelling rest) (q : Position) :
    Genuine ⟨kind, String.ofList text, q⟩ := by
  unfold Genuine
  cases h with
  | @word c cs _ =>
      refine Or.inr ((wordKind_mem (String.ofList (c :: cs))).imp_right fun hident => ?_)
      rw [hident]
      simp
  | int | float | string => exact Or.inr (Or.inr (by simp))
  | symbol hmem => exact Or.inl (by simpa using hmem)

/-- Each token of a scan is a lexeme or the end of file, by induction on the characters left. -/
theorem scanFrom_genuine {fuel : Nat} {p : Position} {cs : List Char} {tokens : List Token}
    (h : scanFrom fuel p cs = .ok tokens) : ∀ t ∈ tokens, t.Genuine := by
  have heof (p : Position) : Genuine ⟨.eof, "", p⟩ := Or.inr (Or.inr (by simp))
  induction fuel generalizing p cs tokens with
  | zero =>
      cases h
      simpa using heof p
  | succ fuel ih =>
      rcases scanFrom_succ_ok h with ⟨q, -, rfl⟩ | ⟨q, c, cs', lx, more, -, hlx, hmore, rfl⟩
      · simpa using heof q
      · obtain ⟨_, -, -, hlexes⟩ := lexeme_ok hlx
        intro t ht
        rw [List.mem_cons] at ht
        rcases ht with rfl | ht
        · exact hlexes.genuine q
        · exact ih hmore t ht

/-- A scan gives genuine tokens only. -/
theorem scan_genuine {source : String} {tokens : List Token} (h : scan source = .ok tokens) :
    ∀ t ∈ tokens, t.Genuine :=
  scanFrom_genuine h

/-- The spelling of a genuine token that is neither a word nor a literal. -/
theorem Genuine.symbol {t : Token} (h : t.Genuine) (hkind : t.kind ∈ symbols.map (·.2)) :
    ∃ spelling, t.text = String.ofList spelling ∧ (spelling, t.kind) ∈ symbols := by
  rcases h with h | h | h
  · exact ⟨t.text.toList, by simp, h⟩
  · have hword : t.kind ∉ symbols.map (·.2) := by
      have : ∀ e ∈ keywords, e.2 ∉ symbols.map (·.2) := by decide
      exact this _ h
    exact absurd hkind hword
  · have hliteral : ∀ k ∈ [TokenKind.eof, .ident, .int, .float, .string],
        k ∉ symbols.map (·.2) := by decide
    exact absurd hkind (hliteral _ h)

/-- What holds of the spellings of some symbols holds of a genuine token with the kind of one. -/
theorem Genuine.of_symbols {t : Token} (h : t.Genuine) {kinds : List TokenKind} {P : String → Prop}
    (hkinds : ∀ k ∈ kinds, k ∈ symbols.map (·.2))
    (hall : ∀ e ∈ symbols, e.2 ∈ kinds → P (String.ofList e.1)) (hkind : t.kind ∈ kinds) :
    P t.text := by
  obtain ⟨spelling, htext, hmem⟩ := h.symbol (hkinds _ hkind)
  rw [htext]
  exact hall _ hmem hkind

/-- A genuine token of a binary operator spells an operator of the language. -/
theorem Genuine.binOp {t : Token} (h : t.Genuine) (hkind : t.kind ∈ Reader.binaryLevels.flatten) :
    (BinOp.ofSymbol t.text).Plain := by
  have hop := h.of_symbols (P := (BinOp.ofSymbol · ∈ BinOp.all)) (by decide) (by decide) hkind
  intro symbol hother
  rw [hother] at hop
  simp [BinOp.all] at hop

/-- A genuine token of a unary operator spells an operator of the language. -/
theorem Genuine.unOp {t : Token} (h : t.Genuine)
    (hkind : t.kind ∈ [TokenKind.bang, .minus, .plus]) : (UnOp.ofSymbol t.text).Plain := by
  have hop := h.of_symbols (P := (UnOp.ofSymbol · ∈ UnOp.all)) (by decide) (by decide) hkind
  intro symbol hother
  rw [hother] at hop
  simp [UnOp.all] at hop

/-- A genuine token of an assignment applies an operator of the language. -/
theorem Genuine.assignOp {t : Token} (h : t.Genuine) (hkind : t.kind ∈ Reader.assignmentKinds) :
    (AssignOp.ofSymbol t.text).Plain := by
  have hop := h.of_symbols (P := (AssignOp.ofSymbol · ∈ AssignOp.all)) (by decide) (by decide) hkind
  generalize AssignOp.ofSymbol t.text = op at hop
  intro binary hbinary symbol hother
  subst hother
  simp only [AssignOp.all, List.mem_cons, List.not_mem_nil, or_false] at hop
  rcases hop with rfl | rfl | rfl | rfl | rfl | rfl <;> simp [AssignOp.binary?] at hbinary

/-- A genuine token of a type spells a type. -/
theorem Genuine.typeName {t : Token} (h : t.Genuine) (hkind : t.kind = .type) :
    ∃ ty, Ty.ofName t.text = .ok ty := by
  have hall : ∀ e ∈ keywords, e.2 = .type → (Ty.ofName? e.1).isSome = true := by decide
  have hmem : (t.text, t.kind) ∈ keywords := by
    rcases h with h | h | h
    · rw [hkind] at h
      simp [symbols] at h
    · exact h
    · rw [hkind] at h
      simp at h
  obtain ⟨ty, hty⟩ := Option.isSome_iff_exists.mp (hall _ hmem hkind)
  exact ⟨ty, by rw [Ty.ofName, hty]⟩

end Token

/-! ## Readers on genuine tokens -/

/-- All tokens around the cursor are genuine. -/
structure Cursor.Genuine (c : Cursor) : Prop where
  here : c.here.Genuine
  ahead : ∀ t ∈ c.ahead, t.Genuine

/-- A cursor on genuine tokens stands on genuine tokens after a step. -/
theorem Cursor.Genuine.advance {c : Cursor} (h : c.Genuine) : c.advance.Genuine := by
  unfold Cursor.advance
  split
  · exact h
  · split
    · exact h
    · next t ts heq =>
        have hahead := h.ahead
        rw [heq] at hahead
        exact ⟨hahead t (by simp), fun t' ht' => hahead t' (by simp [ht'])⟩

/-- A cursor before genuine tokens is one on genuine tokens. -/
theorem Cursor.ofTokens_genuine {tokens : List Token} (h : ∀ t ∈ tokens, t.Genuine) :
    (Cursor.ofTokens tokens).Genuine := by
  cases tokens with
  | nil => exact ⟨Or.inr (Or.inr (by simp [Cursor.ofTokens])), by simp [Cursor.ofTokens]⟩
  | cons t ts => exact ⟨h t (by simp), fun t' ht' => h t' (List.mem_cons_of_mem _ ht')⟩

namespace Reader

variable {α β : Type} {c : Cursor}

/-- What the reader reads at the cursor satisfies `P`, with the cursor after it. -/
def Ends (r : Reader α) (c : Cursor) (P : α → Cursor → Prop) : Prop :=
  ∀ a c', r c = .ok (a, c') → P a c'

/-- What the reader reads at any cursor on genuine tokens satisfies `P`. -/
def Gives (r : Reader α) (P : α → Prop) : Prop :=
  ∀ c : Cursor, c.Genuine → Ends r c fun a c' => P a ∧ c'.Genuine

/-- One reader after another ends as the second one does from where the first one ended. -/
theorem Ends.bind {r : Reader α} {f : α → Reader β} {P : β → Cursor → Prop}
    (h : ∀ a c', r c = .ok (a, c') → Ends (f a) c' P) : Ends (r >>= f) c P := by
  intro b c'' hrun
  rcases hr : r c with e | ⟨a, c'⟩
  · simp [Bind.bind, StateT.bind, Except.bind, hr] at hrun
  · simp only [Bind.bind, StateT.bind, Except.bind, hr] at hrun
    exact h a c' hr b c'' hrun

namespace Gives

/-- A value that is given satisfies what it satisfies. -/
theorem pure {a : α} {P : α → Prop} (h : P a) : Gives (pure a) P := by
  intro c hc b c' hrun
  cases hrun
  exact ⟨h, hc⟩

/-- Of a reader that reads nothing everything holds. -/
theorem throw {e : ReadError} {P : α → Prop} : Gives (throw e : Reader α) P := by
  intro c hc b c' hrun
  cases hrun

/-- Of a reader that fails everything holds. -/
theorem fail {cause : ParseCause} {P : α → Prop} : Gives (Reader.fail cause : Reader α) P := by
  intro c hc b c' hrun
  cases hrun

/-- One reader after another: the second may use what the first one gives. -/
theorem bind {r : Reader α} {f : α → Reader β} {P : α → Prop} {Q : β → Prop} (hr : Gives r P)
    (hf : ∀ a, P a → Gives (f a) Q) : Gives (r >>= f) Q := by
  intro c hc
  refine Ends.bind fun a c' hrun => ?_
  obtain ⟨ha, hc'⟩ := hr c hc a c' hrun
  exact hf a ha c' hc'

/-- A sequence whose first part may give anything. -/
theorem bind_any {r : Reader α} {f : α → Reader β} {Q : β → Prop} (hr : Gives r fun _ => True)
    (hf : ∀ a, Gives (f a) Q) : Gives (r >>= f) Q :=
  hr.bind fun a _ => hf a

/-- A choice gives what both branches give. -/
theorem ite {p : Prop} [Decidable p] {r s : Reader α} {P : α → Prop} (hr : Gives r P)
    (hs : Gives s P) : Gives (if p then r else s) P := by
  split
  · exact hr
  · exact hs

end Gives

/-- Reading the cursor keeps the tokens genuine. -/
theorem get_gives : Gives (get : Reader Cursor) fun _ => True := by
  intro c hc a c' hrun
  cases hrun
  exact ⟨trivial, hc⟩

/-- The token at hand is genuine. -/
theorem here_gives : Gives here fun t => t.Genuine := by
  intro c hc a c' hrun
  cases hrun
  exact ⟨hc.here, hc⟩

/-- Reading the position keeps the tokens genuine. -/
theorem position_gives : Gives position fun _ => True := by
  intro c hc a c' hrun
  cases hrun
  exact ⟨trivial, hc⟩

/-- Making a span keeps the tokens genuine. -/
theorem spanFrom_gives (start : Position) : Gives (spanFrom start) fun _ => True := by
  intro c hc a c' hrun
  cases hrun
  exact ⟨trivial, hc⟩

/-- The token that is passed is genuine. -/
theorem advance_gives : Gives advance fun t => t.Genuine := by
  intro c hc a c' hrun
  cases hrun
  exact ⟨hc.here, hc.advance⟩

/-- Taking the value of a numeral keeps the tokens genuine. -/
theorem numeral_gives {x : Except NumeralError α} : Gives (numeral x) fun _ => True := by
  unfold numeral
  split
  · exact .pure trivial
  · exact .throw

/-- A demanded token that is passed is genuine and of the demanded kind. -/
theorem expect_gives (kind : TokenKind) (what : Expected) :
    Gives (expect kind what) fun t => t.Genuine ∧ t.kind = kind := by
  intro c hc a c' hrun
  rw [expect_apply] at hrun
  by_cases hkind : c.here.kind = kind
  · rw [if_pos hkind] at hrun
    cases hrun
    exact ⟨⟨hc.here, hkind⟩, hc.advance⟩
  · rw [if_neg hkind] at hrun
    cases hrun

/-- A token that is accepted is genuine and of one of the accepted kinds. -/
theorem accept?_gives (kinds : List TokenKind) :
    Gives (accept? kinds) fun r => ∀ t, r = some t → t.Genuine ∧ t.kind ∈ kinds := by
  intro c hc a c' hrun
  rw [accept?_apply] at hrun
  by_cases hkind : kinds.contains c.here.kind = true
  · rw [if_pos hkind] at hrun
    cases hrun
    refine ⟨?_, hc.advance⟩
    intro t ht
    cases ht
    exact ⟨hc.here, by simpa using hkind⟩
  · rw [if_neg hkind] at hrun
    cases hrun
    refine ⟨?_, hc⟩
    intro t ht
    cases ht

/-! ## Expressions -/

/-- The kinds of tokens are those of binary operators. -/
def OfOperators (kinds : List TokenKind) : Prop := ∀ k ∈ kinds, k ∈ binaryLevels.flatten

mutual

/-- Expressions that were read are plain. -/
theorem expr_gives : ∀ fuel, Gives (expr fuel) Expr.Plain
  | 0 => .throw
  | fuel + 1 => by
      have hlevels : ∀ kinds ∈ binaryLevels, OfOperators kinds := fun kinds hkinds k hk =>
        List.mem_flatten.mpr ⟨kinds, hkinds, hk⟩
      refine .bind_any position_gives fun start => .bind (binary_gives fuel _ hlevels)
        fun cond hcond => .bind (accept?_gives _) fun r _ => ?_
      cases r with
      | none => exact .pure hcond
      | some t =>
          exact .bind (expr_gives fuel) fun yes hyes => .bind (expect_gives _ _) fun _ _ =>
            .bind (expr_gives fuel) fun no hno => .bind_any (spanFrom_gives _) fun _ =>
              .pure ⟨hcond, hyes, hno⟩

/-- The operators of a chain are taken from genuine tokens, so the expression is plain. -/
theorem binary_gives : ∀ fuel (levels : List (List TokenKind)),
    (∀ kinds ∈ levels, OfOperators kinds) → Gives (binary fuel levels) Expr.Plain
  | 0, _, _ => .throw
  | fuel + 1, [], _ => unary_gives fuel
  | fuel + 1, kinds :: tighter, h =>
      have htighter : ∀ kinds ∈ tighter, OfOperators kinds := fun k hk =>
        h k (List.mem_cons_of_mem _ hk)
      .bind_any position_gives fun _ => .bind (binary_gives fuel tighter htighter)
        fun left hleft => binaryTail_gives fuel _ _ _ (h kinds (by simp)) htighter left hleft

/-- A plain left operand is extended by genuine operators and plain right operands. -/
theorem binaryTail_gives : ∀ fuel start (kinds : List TokenKind) (tighter : List (List TokenKind)),
    OfOperators kinds → (∀ kinds ∈ tighter, OfOperators kinds) → ∀ left : Expr, left.Plain →
      Gives (binaryTail fuel start kinds tighter left) Expr.Plain
  | 0, _, _, _, _, _, _, _ => .throw
  | fuel + 1, start, kinds, tighter, hkinds, htighter, left, hleft => by
      refine .bind (accept?_gives _) fun r hr => ?_
      cases r with
      | none => exact .pure hleft
      | some op =>
          obtain ⟨hgenuine, hkind⟩ := hr op rfl
          exact .bind (binary_gives fuel tighter htighter) fun right hright =>
            .bind_any (spanFrom_gives _) fun _ =>
              binaryTail_gives fuel start kinds tighter hkinds htighter _
                ⟨hgenuine.binOp (hkinds _ hkind), hleft, hright⟩

/-- Unary expressions that were read are plain. -/
theorem unary_gives : ∀ fuel, Gives (unary fuel) Expr.Plain
  | 0 => .throw
  | fuel + 1 => by
      refine .bind_any position_gives fun start => .bind (accept?_gives _) fun r hr => ?_
      cases r with
      | none => exact primary_gives fuel
      | some op =>
          obtain ⟨hgenuine, hkind⟩ := hr op rfl
          exact .bind (unary_gives fuel) fun operand hoperand =>
            .bind_any (spanFrom_gives _) fun _ => .pure ⟨hgenuine.unOp hkind, hoperand⟩

/-- Primary expressions that were read are plain. -/
theorem primary_gives : ∀ fuel, Gives (primary fuel) Expr.Plain
  | 0 => .throw
  | fuel + 1 => by
      refine .bind_any position_gives fun start => .bind here_gives fun t _ => ?_
      split
      · exact .bind advance_gives fun _ _ => .bind_any numeral_gives fun _ =>
          .bind_any (spanFrom_gives _) fun _ => .pure trivial
      · exact .bind advance_gives fun _ _ => .bind_any numeral_gives fun _ =>
          .bind_any (spanFrom_gives _) fun _ => .pure trivial
      · exact .bind advance_gives fun _ _ => .bind_any (spanFrom_gives _) fun _ => .pure trivial
      · exact .bind advance_gives fun _ _ => .bind_any (spanFrom_gives _) fun _ => .pure trivial
      · exact .bind advance_gives fun _ _ => .bind_any (spanFrom_gives _) fun _ => .pure trivial
      · exact .bind_any get_gives fun _ => .ite (call_gives fuel) (.bind advance_gives fun _ _ =>
          .bind_any (spanFrom_gives _) fun _ => .pure trivial)
      · exact .bind advance_gives fun _ _ => .bind (expr_gives fuel) fun inner hinner =>
          .bind (expect_gives _ _) fun _ _ => .bind_any (spanFrom_gives _) fun _ => .pure hinner
      · exact .fail

/-- Calls that were read are plain. -/
theorem call_gives : ∀ fuel, Gives (call fuel) Expr.Plain
  | 0 => .throw
  | fuel + 1 => by
      have hend (name : Token) (start : Position) (args : List Expr) (hargs : Expr.PlainAll args) :
          Gives (expect .rparen .closingArgs >>= fun _ => spanFrom start >>= fun sp =>
            Pure.pure (Expr.call name.text args sp)) Expr.Plain :=
        .bind (expect_gives _ _) fun _ _ => .bind_any (spanFrom_gives _) fun _ => .pure hargs
      refine .bind_any position_gives fun start => .bind advance_gives fun name _ =>
        .bind advance_gives fun _ _ => .bind here_gives fun t _ => ?_
      split
      · exact hend name start [] trivial
      · exact .bind (arguments_gives fuel) fun args hargs => hend name start args hargs

/-- Arguments that were read are plain. -/
theorem arguments_gives : ∀ fuel, Gives (arguments fuel) Expr.PlainAll
  | 0 => .throw
  | fuel + 1 => by
      refine .bind (expr_gives fuel) fun arg harg => .bind (accept?_gives _) fun r _ => ?_
      cases r with
      | none => exact .pure ⟨harg, trivial⟩
      | some _ => exact .bind (arguments_gives fuel) fun args hargs => .pure ⟨harg, hargs⟩

end

/-! ## Statements and programs -/

/-- Declarations that were read are plain. -/
theorem declaration_gives (fuel : Nat) : Gives (declaration fuel) Stmt.Plain :=
  .bind_any position_gives fun _ => .bind advance_gives fun _ _ => .bind (expect_gives _ _)
    fun _ _ => .bind (expect_gives _ _) fun _ _ => .bind (expr_gives fuel) fun _ hvalue =>
      .bind (expect_gives _ _) fun _ _ => .bind_any (spanFrom_gives _) fun _ => .pure hvalue

/-- Assignments that were read have a genuine operator, and calls are plain. -/
theorem callOrAssignment_gives (fuel : Nat) : Gives (callOrAssignment fuel) Stmt.Plain := by
  refine .bind_any position_gives fun start => .bind_any get_gives fun c => .ite ?_ ?_
  · exact .bind (call_gives fuel) fun callee hcallee => .bind (expect_gives _ _) fun _ _ =>
      .bind_any (spanFrom_gives _) fun _ => .pure hcallee
  · refine .bind advance_gives fun name _ => .bind (accept?_gives _) fun r hr => ?_
    cases r with
    | none => exact .fail
    | some op =>
        obtain ⟨hgenuine, hkind⟩ := hr op rfl
        exact .bind (expr_gives fuel) fun value hvalue => .bind (expect_gives _ _) fun _ _ =>
          .bind_any (spanFrom_gives _) fun _ => .pure ⟨hgenuine.assignOp hkind, hvalue⟩

/-- Returns that were read are plain. -/
theorem returning_gives (fuel : Nat) : Gives (returning fuel) Stmt.Plain := by
  have hend (start : Position) (value : Option Expr) (hvalue : ∀ e, value = some e → e.Plain) :
      Gives (expect .semi .endOfReturn >>= fun _ => spanFrom start >>= fun sp =>
        Pure.pure (Stmt.ret value sp)) Stmt.Plain := by
    refine .bind (expect_gives _ _) fun _ _ => .bind_any (spanFrom_gives _) fun sp => .pure ?_
    cases value with
    | none => trivial
    | some e => exact hvalue e rfl
  refine .bind_any position_gives fun start => .bind advance_gives fun _ _ =>
    .bind here_gives fun t _ => ?_
  split
  · exact hend start none nofun
  · refine .bind (P := fun value : Option Expr => ∀ e, value = some e → e.Plain) ?_
      fun value hvalue => hend start value hvalue
    rw [map_eq_pure_bind]
    refine .bind (expr_gives fuel) fun e he => .pure ?_
    rintro _ ⟨⟩
    exact he

/-- A statement of one word is plain if it is so with every span. -/
theorem wordStmt_gives (stmt : Option Span → Stmt) (h : ∀ sp, (stmt sp).Plain)
    (what : Expected) : Gives (wordStmt stmt what) Stmt.Plain :=
  .bind_any position_gives fun _ => .bind advance_gives fun _ _ => .bind (expect_gives _ _)
    fun _ _ => .bind_any (spanFrom_gives _) fun sp => .pure (h sp)

mutual

/-- Statements that were read are plain. -/
theorem stmt_gives : ∀ fuel, Gives (stmt fuel) Stmt.Plain
  | 0 => .throw
  | fuel + 1 => by
      refine .bind_any position_gives fun start => .bind here_gives fun t _ => ?_
      split
      · exact declaration_gives fuel
      · exact declaration_gives fuel
      · refine .bind advance_gives fun _ _ => .bind (expr_gives fuel) fun cond hcond =>
          .bind (block_gives fuel) fun yes hyes => .bind (accept?_gives _) fun r _ => ?_
        cases r with
        | none => exact .bind_any (spanFrom_gives _) fun _ => .pure ⟨hcond, hyes⟩
        | some _ =>
            exact .bind (block_gives fuel) fun no hno => .bind_any (spanFrom_gives _) fun _ =>
              .pure ⟨hcond, hyes, hno⟩
      · exact .bind advance_gives fun _ _ => .bind (expr_gives fuel) fun cond hcond =>
          .bind (block_gives fuel) fun body hbody => .bind_any (spanFrom_gives _) fun _ =>
            .pure ⟨hcond, hbody⟩
      · exact .bind advance_gives fun _ _ => .bind (block_gives fuel) fun body hbody =>
          .bind (expect_gives _ _) fun _ _ => .bind (expr_gives fuel) fun cond hcond =>
            .bind (expect_gives _ _) fun _ _ => .bind_any (spanFrom_gives _) fun _ =>
              .pure ⟨hbody, hcond⟩
      · refine .bind advance_gives fun _ _ => .bind (expect_gives _ _) fun counter _ =>
          .bind (expect_gives _ _) fun _ _ => .bind (expr_gives fuel) fun first hfirst =>
            .bind (accept?_gives _) fun r _ => ?_
        cases r with
        | none => exact .fail
        | some direction =>
            exact .bind (expr_gives fuel) fun bound hbound => .bind (block_gives fuel)
              fun body hbody => .bind_any (spanFrom_gives _) fun _ => .pure ⟨hfirst, hbound, hbody⟩
      · exact wordStmt_gives .brk (fun _ => trivial) _
      · exact wordStmt_gives .cont (fun _ => trivial) _
      · exact returning_gives fuel
      · exact callOrAssignment_gives fuel
      · exact .fail
      · exact .fail
      · exact .fail

/-- Blocks that were read are plain. -/
theorem block_gives : ∀ fuel, Gives (block fuel) Block.Plain
  | 0 => .throw
  | fuel + 1 => by
      refine .bind_any position_gives fun start => .bind (accept?_gives _) fun r _ => ?_
      cases r with
      | some _ =>
          exact .bind (stmts_gives fuel) fun body hbody => .bind advance_gives fun _ _ =>
            .bind_any (spanFrom_gives _) fun _ => .pure hbody
      | none =>
          exact .bind (stmt_gives fuel) fun s hs => .bind_any (spanFrom_gives _) fun _ =>
            .pure ⟨hs, trivial⟩

/-- Lists of statements that were read are plain. -/
theorem stmts_gives : ∀ fuel, Gives (stmts fuel) Stmt.PlainAll
  | 0 => .throw
  | fuel + 1 => by
      refine .bind here_gives fun t _ => ?_
      split
      · exact .pure trivial
      · exact .fail
      · exact .bind (stmt_gives fuel) fun s hs => .bind (stmts_gives fuel) fun ss hss =>
          .pure ⟨hs, hss⟩

end

/-- The type of the parameter is spelled correctly. -/
def Spelled (p : Param) : Prop := ∃ ty, Ty.ofName p.typeName = .ok ty

/-- Parameters that were read have type names that are spelled as such. -/
theorem params_gives : ∀ fuel, Gives (params fuel) fun ps => ∀ p ∈ ps, Spelled p
  | 0 => .throw
  | fuel + 1 => by
      refine .bind_any position_gives fun start => .bind (expect_gives _ _) fun type htype =>
        .bind (expect_gives _ _) fun name _ => .bind_any (spanFrom_gives _) fun sp =>
          .bind (accept?_gives _) fun r _ => ?_
      have hparam : Spelled ⟨name.text, type.text, sp⟩ := htype.1.typeName htype.2
      cases r with
      | none => exact .pure (by simpa using hparam)
      | some _ =>
          refine .bind (params_gives fuel) fun ps hps => .pure fun p hp => ?_
          rw [List.mem_cons] at hp
          rcases hp with rfl | hp
          · exact hparam
          · exact hps p hp

/-- Parameters whose type names are spelled as such have types. -/
theorem parameters_ok {ps : List Param} (h : ∀ p ∈ ps, Spelled p) :
    ∃ qs, Param.parameters ps = .ok qs := by
  induction ps with
  | nil => exact ⟨[], rfl⟩
  | cons p ps ih =>
      obtain ⟨ty, hty⟩ := h p (by simp)
      obtain ⟨qs, hqs⟩ := ih fun p' hp' => h p' (by simp [hp'])
      refine ⟨⟨p.name, ty⟩ :: qs, ?_⟩
      unfold Param.parameters at hqs ⊢
      rw [List.mapM_cons, hqs, hty]
      rfl

/-- A function declaration is read where the cursor stands on a type. -/
theorem function_ends (fuel : Nat) {c : Cursor} (hc : c.Genuine) (hkind : c.here.kind = .type) :
    Ends (function fuel) c fun d c' => d.Plain ∧ c'.Genuine := by
  obtain ⟨ty, hty⟩ := hc.here.typeName hkind
  have hend (name : Token) (start : Position) (ps : List Param) (hps : ∀ p ∈ ps, Spelled p) :
      Gives (expect .rparen .closingParams >>= fun _ => block fuel >>= fun body =>
        spanFrom start >>= fun sp =>
          Pure.pure (FuncDecl.mk name.text ps c.here.text body sp)) FuncDecl.Plain := by
    refine .bind (expect_gives _ _) fun _ _ => .bind (block_gives fuel) fun body hbody =>
      .bind_any (spanFrom_gives _) fun sp => .pure ⟨?_, hbody⟩
    obtain ⟨qs, hqs⟩ := parameters_ok hps
    refine ⟨⟨name.text, ty, qs, .declared body⟩, ?_⟩
    simp only [FuncDecl.toFunction, hqs, hty, bind, Except.bind, pure, Except.pure]
  refine Ends.bind fun start c₁ hstart => Ends.bind fun t c₂ hadvance => ?_
  cases hstart
  cases hadvance
  refine (?_ : Gives _ FuncDecl.Plain) c.advance hc.advance
  exact .bind (expect_gives _ _) fun name _ => .bind (expect_gives _ _) fun _ _ =>
    .bind here_gives fun _ _ => .ite (hend name _ [] (by simp))
      (.bind (params_gives fuel) fun ps hps => hend name _ ps hps)

/-- Items of a program that were read are plain. -/
theorem items_gives : ∀ fuel, Gives (items fuel) fun items => ∀ item ∈ items, item.Plain
  | 0 => .throw
  | fuel + 1 => by
      have hcons (item : Item) (hitem : item.Plain) :
          Gives (items fuel >>= fun rest => Pure.pure (item :: rest))
            fun items => ∀ item ∈ items, item.Plain := by
        refine .bind (items_gives fuel) fun rest hrest => .pure fun item' h => ?_
        rw [List.mem_cons] at h
        rcases h with rfl | h
        · exact hitem
        · exact hrest item' h
      intro c hc
      refine Ends.bind fun t c₁ hhere => ?_
      cases hhere
      split
      · exact Gives.pure (by simp) c hc
      · next hkind =>
          refine Ends.bind fun d c₂ hrun => ?_
          obtain ⟨hd, hc₂⟩ := function_ends fuel hc hkind d c₂ hrun
          exact hcons (.func d) hd c₂ hc₂
      · exact Gives.bind (stmt_gives fuel) (fun s hs => hcons (.stmt s) hs) c hc

end Reader

/-- A program that was read from genuine tokens is plain. -/
theorem Program.plain_of_ofTokens {tokens : List Token} {filename : Option String} {p : Program}
    (htokens : ∀ t ∈ tokens, t.Genuine) (h : Program.ofTokens tokens filename = .ok p) :
    p.Plain := by
  have hprogram : Reader.Gives (Reader.program (Reader.depthFor tokens.length) filename)
      Program.Plain :=
    .bind_any Reader.position_gives fun _ => .bind (Reader.items_gives _) fun _ hbody =>
      .bind_any (Reader.spanFrom_gives _) fun _ => .pure hbody
  obtain ⟨c, hrun⟩ := Program.ofTokens_eq_ok_iff.mp h
  exact (hprogram _ (Cursor.ofTokens_genuine htokens) p c hrun).1

/-- A source text is read as a program where it is scanned, and its tokens are read as one. -/
theorem Program.ofSource_eq_ok_iff {source sourceName : String} {filename : Option String}
    {p : Program} : Program.ofSource source sourceName filename = .ok p ↔
      ∃ tokens, Token.scan source = .ok tokens ∧ Program.ofTokens tokens filename = .ok p := by
  unfold Program.ofSource
  cases Token.scan source with
  | error e => simp
  | ok tokens => cases hread : Program.ofTokens tokens filename <;> simp [hread]

/-- A program that was read from source text is plain. -/
theorem Program.plain_of_ofSource {source sourceName : String} {filename : Option String}
    {p : Program} (h : Program.ofSource source sourceName filename = .ok p) : p.Plain := by
  obtain ⟨tokens, hscan, hread⟩ := Program.ofSource_eq_ok_iff.mp h
  exact Program.plain_of_ofTokens (Token.scan_genuine hscan) hread

end Pigeon
