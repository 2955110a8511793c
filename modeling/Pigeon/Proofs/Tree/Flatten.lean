import Mathlib.Data.List.Forall2
import Pigeon.Decimal.Numeral
import Pigeon.Proofs.Grammar.Rules
import Pigeon.Tree

/-!
# Flat trees

The terminals of a tree are what its tokens stand for, from left to right. A token spells a
terminal if it has the right kind and says what the tree keeps of it: a name, an operator, the
value of a number.

A tree is *normal* if reading its terminals can give it back: operands are at least as tight as
their place asks for, a body without braces is a single statement, and no `else` follows a body
that would claim it for an `if` of its own. Two trees that differ in their spans only have the same
bare tree.
-/

namespace Pigeon

/-! ## Terminals -/

/-- What a token stands for in a tree. -/
inductive Terminal where
  /-- A word or a symbol that always means the same. -/
  | fixed (kind : TokenKind)
  | name (s : String)
  | type (s : String)
  | int (n : Int)
  | float (x : Float)
  | string (s : String)
  | unary (op : UnOp)
  | binary (op : BinOp)
  | assignment (op : AssignOp)
  | direction (d : Direction)

/-- The token stands for the terminal. Numbers are compared by value. -/
def Terminal.SpelledBy : Terminal → Token → Prop
  | fixed kind, t => t.kind = kind
  | name s, t => t.kind = .ident ∧ t.text = s
  | type s, t => t.kind = .type ∧ t.text = s
  | int n, t => t.kind = .int ∧ Numeral.readInt t.text = .ok n
  | float x, t => t.kind = .float ∧ Numeral.readFloat t.text = .ok x
  | string s, t => t.kind = .string ∧ t.text = s
  | unary op, t => t.kind ∈ Grammar.unaryOperators ∧ t.text = op.symbol
  | binary op, t => t.kind ∈ Grammar.precedence.flatten ∧ t.text = op.symbol
  | assignment op, t => t.kind ∈ Grammar.assignmentOperators ∧ t.text = op.symbol
  | direction d, t => t.kind ∈ [TokenKind.kwTo, .kwDownto] ∧ t.text = d.word

/-- The tokens stand for the terminals, one by one. -/
abbrev Terminal.Spell (terminals : List Terminal) (tokens : List Token) : Prop :=
  List.Forall₂ Terminal.SpelledBy terminals tokens

/-- Tokens in a row spell terminals in a row. -/
theorem Terminal.Spell.append {ts ts' : List Terminal} {w w' : List Token} (h : Spell ts w)
    (h' : Spell ts' w') : Spell (ts ++ ts') (w ++ w') :=
  List.rel_append h h'

mutual

/-- The terminals of an expression. -/
def Expr.flatten : Expr → List Terminal
  | .int n _ => [.int n]
  | .float x _ => [.float x]
  | .string s _ => [.string s]
  | .bool b _ => [.fixed (if b then .kwTrue else .kwFalse)]
  | .var name _ => [.name name]
  | .paren e _ => .fixed .lparen :: e.flatten ++ [.fixed .rparen]
  | .unary op e _ => .unary op :: e.flatten
  | .binary op l r _ => l.flatten ++ .binary op :: r.flatten
  | .ternary c y n _ => c.flatten ++ .fixed .question :: y.flatten ++ .fixed .colon :: n.flatten
  | .call name args _ =>
    .name name :: .fixed .lparen :: Expr.flattenArgs args ++ [.fixed .rparen]
  | .other _ _ _ => []

/-- The terminals of arguments, with commas between them. -/
def Expr.flattenArgs : List Expr → List Terminal
  | [] => []
  | [e] => e.flatten
  | e :: e' :: es => e.flatten ++ .fixed .comma :: Expr.flattenArgs (e' :: es)

end

mutual

/-- The terminals of a statement. -/
def Stmt.flatten : Stmt → List Terminal
  | .block b => b.flatten
  | .declare name e isConst _ =>
    .fixed (if isConst then .kwConst else .kwLet) :: .name name :: .fixed .assign :: e.flatten ++
      [.fixed .semi]
  | .assign name op e _ => .name name :: .assignment op :: e.flatten ++ [.fixed .semi]
  | .call e _ => e.flatten ++ [.fixed .semi]
  | .ifThen c y _ => .fixed .kwIf :: c.flatten ++ y.flatten
  | .ifThenElse c y n _ =>
    .fixed .kwIf :: c.flatten ++ y.flatten ++ .fixed .kwElse :: n.flatten
  | .whileDo c b _ => .fixed .kwWhile :: c.flatten ++ b.flatten
  | .doWhile b c _ =>
    .fixed .kwDo :: b.flatten ++ .fixed .kwWhile :: c.flatten ++ [.fixed .semi]
  | .forCount counter start bound d b _ =>
    .fixed .kwFor :: .name counter :: .fixed .assign :: start.flatten ++
      .direction d :: bound.flatten ++ b.flatten
  | .ret none _ => [.fixed .kwReturn, .fixed .semi]
  | .ret (some e) _ => .fixed .kwReturn :: e.flatten ++ [.fixed .semi]
  | .brk _ => [.fixed .kwBreak, .fixed .semi]
  | .cont _ => [.fixed .kwContinue, .fixed .semi]
  | .other _ _ _ => []

/-- The terminals of a body. -/
def Block.flatten : Block → List Terminal
  | .mk ss true _ => .fixed .lbrace :: Stmt.flattenAll ss ++ [.fixed .rbrace]
  | .mk ss false _ => Stmt.flattenAll ss

/-- The terminals of statements. -/
def Stmt.flattenAll : List Stmt → List Terminal
  | [] => []
  | s :: ss => s.flatten ++ Stmt.flattenAll ss

end

/-- The terminals of parameters, with commas between them. -/
def Param.flattenAll : List Param → List Terminal
  | [] => []
  | [p] => [.type p.typeName, .name p.name]
  | p :: p' :: ps =>
    .type p.typeName :: .name p.name :: .fixed .comma :: Param.flattenAll (p' :: ps)

/-- The terminals of a function declaration. -/
def FuncDecl.flatten (d : FuncDecl) : List Terminal :=
  .type d.returnType :: .name d.name :: .fixed .lparen :: Param.flattenAll d.params ++
    .fixed .rparen :: d.body.flatten

/-- The terminals of an item. -/
def Item.flatten : Item → List Terminal
  | .func d => d.flatten
  | .stmt s => s.flatten

/-- The terminals of a program. -/
def Program.flatten (p : Program) : List Terminal := p.items.flatMap Item.flatten

/-- Arguments after the first one are written after a comma. -/
theorem Expr.flattenArgs_cons (e : Expr) {es : List Expr} (h : es ≠ []) :
    Expr.flattenArgs (e :: es) = e.flatten ++ .fixed .comma :: Expr.flattenArgs es := by
  obtain ⟨e', es, rfl⟩ := List.exists_cons_of_ne_nil h
  rw [Expr.flattenArgs]

/-- Parameters after the first one are written after a comma. -/
theorem Param.flattenAll_cons (p : Param) {ps : List Param} (h : ps ≠ []) :
    Param.flattenAll (p :: ps) =
      .type p.typeName :: .name p.name :: .fixed .comma :: Param.flattenAll ps := by
  obtain ⟨p', ps, rfl⟩ := List.exists_cons_of_ne_nil h
  rw [Param.flattenAll]

/-! ## Normal trees -/

/-- The level of a binary operator, counted from one for the loosest; an operator that the language
does not have has none. -/
def BinOp.tightness : BinOp → Nat
  | or => 1
  | and => 2
  | eq | ne => 3
  | lt | gt | le | ge => 4
  | add | sub => 5
  | mul | div | mod => 6
  | other _ => 0

/-- How tightly an expression holds together: a conditional expression least, then the levels of
the binary operators, then unary operators. -/
def Expr.tightness : Expr → Nat
  | .ternary _ _ _ _ => 0
  | .binary op _ _ _ => op.tightness
  | .unary _ _ _ => 7
  | _ => 8

/-- The expression is a call. -/
def Expr.IsCall : Expr → Prop
  | .call _ _ _ => True
  | _ => False

mutual

/-- Every operand is as tight as its place asks for: operators are left-associative, and a
conditional expression is right-associative. -/
def Expr.Normal : Expr → Prop
  | .int _ _ | .float _ _ | .string _ _ | .bool _ _ | .var _ _ => True
  | .paren e _ => e.Normal
  | .unary op e _ => op ∈ UnOp.all ∧ 7 ≤ e.tightness ∧ e.Normal
  | .binary op l r _ => op ∈ BinOp.all ∧ op.tightness ≤ l.tightness ∧
      op.tightness < r.tightness ∧ l.Normal ∧ r.Normal
  | .ternary c y n _ => 0 < c.tightness ∧ c.Normal ∧ y.Normal ∧ n.Normal
  | .call _ args _ => Expr.NormalAll args
  | .other _ _ _ => False

/-- All expressions of a list are normal. -/
def Expr.NormalAll : List Expr → Prop
  | [] => True
  | e :: es => e.Normal ∧ Expr.NormalAll es

end

mutual

/-- The statement ends in an `if` without an `else`, so it would claim an `else` after it. -/
def Stmt.Open : Stmt → Prop
  | .ifThen _ _ _ => True
  | .ifThenElse _ _ n _ => n.Open
  | .whileDo _ b _ => b.Open
  | .forCount _ _ _ _ b _ => b.Open
  | _ => False

/-- The body has no braces and ends in an `if` without an `else`. -/
def Block.Open : Block → Prop
  | .mk _ true _ => False
  | .mk ss false _ => Stmt.LastOpen ss

/-- The last statement ends in an `if` without an `else`. -/
def Stmt.LastOpen : List Stmt → Prop
  | [] => False
  | [s] => s.Open
  | _ :: s :: ss => Stmt.LastOpen (s :: ss)

end

mutual

/-- The parts of the statement are normal, and no body in it stands where it cannot be read. -/
def Stmt.Normal : Stmt → Prop
  | .block _ => False
  | .declare _ e _ _ => e.Normal
  | .assign _ op e _ => op ∈ AssignOp.all ∧ e.Normal
  | .call e _ => e.IsCall ∧ e.Normal
  | .ifThen c y _ => c.Normal ∧ y.Normal
  | .ifThenElse c y n _ => c.Normal ∧ y.Normal ∧ n.Normal ∧ ¬ y.Open
  | .whileDo c b _ => c.Normal ∧ b.Normal
  | .doWhile b c _ => b.Normal ∧ c.Normal
  | .forCount _ start bound d b _ =>
    start.Normal ∧ d ∈ [Direction.up, .down] ∧ bound.Normal ∧ b.Normal
  | .ret none _ | .brk _ | .cont _ => True
  | .ret (some e) _ => e.Normal
  | .other _ _ _ => False

/-- A body without braces is a single statement. -/
def Block.Normal : Block → Prop
  | .mk ss braced _ => Stmt.NormalAll ss ∧ (braced = false → ss.length = 1)

/-- All statements of a list are normal. -/
def Stmt.NormalAll : List Stmt → Prop
  | [] => True
  | s :: ss => s.Normal ∧ Stmt.NormalAll ss

end

/-- The item is normal. -/
def Item.Normal : Item → Prop
  | .func d => d.body.Normal
  | .stmt s => s.Normal

/-- All items of the program are normal. -/
def Program.Normal (p : Program) : Prop := ∀ item ∈ p.items, item.Normal

/-! ## Trees without spans -/

mutual

/-- The expression without its spans. -/
def Expr.bare : Expr → Expr
  | .int n _ => .int n none
  | .float x _ => .float x none
  | .string s _ => .string s none
  | .bool b _ => .bool b none
  | .var name _ => .var name none
  | .paren e _ => .paren e.bare none
  | .unary op e _ => .unary op e.bare none
  | .binary op l r _ => .binary op l.bare r.bare none
  | .ternary c y n _ => .ternary c.bare y.bare n.bare none
  | .call name args _ => .call name (Expr.bareAll args) none
  | .other kind fields _ => .other kind fields none

/-- The expressions of a list without their spans. -/
def Expr.bareAll : List Expr → List Expr
  | [] => []
  | e :: es => e.bare :: Expr.bareAll es

end

mutual

/-- The statement without its spans. -/
def Stmt.bare : Stmt → Stmt
  | .block b => .block b.bare
  | .declare name e isConst _ => .declare name e.bare isConst none
  | .assign name op e _ => .assign name op e.bare none
  | .call e _ => .call e.bare none
  | .ifThen c y _ => .ifThen c.bare y.bare none
  | .ifThenElse c y n _ => .ifThenElse c.bare y.bare n.bare none
  | .whileDo c b _ => .whileDo c.bare b.bare none
  | .doWhile b c _ => .doWhile b.bare c.bare none
  | .forCount counter start bound d b _ => .forCount counter start.bare bound.bare d b.bare none
  | .ret none _ => .ret none none
  | .ret (some e) _ => .ret (some e.bare) none
  | .brk _ => .brk none
  | .cont _ => .cont none
  | .other kind fields _ => .other kind fields none

/-- The body without its spans. -/
def Block.bare : Block → Block
  | .mk ss braced _ => .mk (Stmt.bareAll ss) braced none

/-- The statements of a list without their spans. -/
def Stmt.bareAll : List Stmt → List Stmt
  | [] => []
  | s :: ss => s.bare :: Stmt.bareAll ss

end

/-- The parameter without its span. -/
def Param.bare (p : Param) : Param := { p with span := none }

/-- The function declaration without its spans. -/
def FuncDecl.bare (d : FuncDecl) : FuncDecl :=
  { d with params := d.params.map Param.bare, body := d.body.bare, span := none }

/-- The item without its spans. -/
def Item.bare : Item → Item
  | .func d => .func d.bare
  | .stmt s => .stmt s.bare

/-- The items of the program without their spans. -/
def Program.bareItems (p : Program) : List Item := p.items.map Item.bare

/-! ## Operators and their symbols -/

/-- The binary operator of a symbol is written as that symbol. -/
@[simp] theorem BinOp.symbol_ofSymbol (s : String) : (BinOp.ofSymbol s).symbol = s := by
  unfold BinOp.ofSymbol
  cases h : BinOp.all.find? (·.symbol = s) with
  | none => rfl
  | some op => simpa using List.find?_some h

/-- The unary operator of a symbol is written as that symbol. -/
@[simp] theorem UnOp.symbol_ofSymbol (s : String) : (UnOp.ofSymbol s).symbol = s := by
  unfold UnOp.ofSymbol
  cases h : UnOp.all.find? (·.symbol = s) with
  | none => rfl
  | some op => simpa using List.find?_some h

/-- The assignment operator of a symbol is written as that symbol. -/
@[simp] theorem AssignOp.symbol_ofSymbol (s : String) : (AssignOp.ofSymbol s).symbol = s := by
  unfold AssignOp.ofSymbol
  cases h : AssignOp.all.find? (·.symbol = s) with
  | none => rfl
  | some op => simpa using List.find?_some h

/-- The direction of a word is written as that word. -/
@[simp] theorem Direction.word_ofWord (w : String) : (Direction.ofWord w).word = w := by
  unfold Direction.ofWord
  split
  · next h => exact h.symm
  · split
    · next h => exact h.symm
    · rfl

end Pigeon
