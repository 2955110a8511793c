import Pigeon.Token

/-!
# The grammar

The rules of the language over the kinds of tokens. `Derives p w` says that the kinds `w` are
those of a phrase `p`. The rules leave open which `if` an `else` belongs to: where two conditions
stand before it, both choices are derivations.
-/

namespace Pigeon.Grammar

/-- The phrases of the language. -/
inductive Phrase where
  | program
  | funcDecl
  | params
  | block
  | stmts
  | stmt
  | expr
  /-- An expression of the binary operators at the given levels, the loosest level first. -/
  | level (levels : List (List TokenKind))
  | unary
  | primary
  | call
  | args

/-- The binary operators, level by level, from the loosest to the tightest. -/
def precedence : List (List TokenKind) :=
  [[.or], [.and], [.eq, .ne], [.lt, .gt, .le, .ge], [.plus, .minus], [.star, .slash, .percent]]

/-- The levels of an operand, if it is one, are the tightest ones of the language. -/
def Phrase.InLanguage : Phrase → Prop
  | .level levels => levels <:+ precedence
  | _ => True

/-- The unary operators. -/
def unaryOperators : List TokenKind := [.bang, .minus, .plus]

/-- The operators of assignments. -/
def assignmentOperators : List TokenKind :=
  [.assign, .plusAssign, .minusAssign, .starAssign, .slashAssign, .percentAssign]

/-- The tokens that are expressions on their own. -/
def atoms : List TokenKind := [.int, .float, .string, .kwTrue, .kwFalse, .ident]

/-- The kinds of tokens are those of a phrase. -/
inductive Derives : Phrase → List TokenKind → Prop
  -- programs and functions
  | noItems : Derives .program []
  | func {f p} : Derives .funcDecl f → Derives .program p → Derives .program (f ++ p)
  | topStmt {s p} : Derives .stmt s → Derives .program p → Derives .program (s ++ p)
  | funcDecl {b} : Derives .block b → Derives .funcDecl (.type :: .ident :: .lparen :: .rparen :: b)
  | funcDeclParams {ps b} : Derives .params ps → Derives .block b →
      Derives .funcDecl (.type :: .ident :: .lparen :: ps ++ .rparen :: b)
  | param : Derives .params [.type, .ident]
  | moreParams {ps} : Derives .params ps → Derives .params (.type :: .ident :: .comma :: ps)
  -- blocks and statements
  | braced {ss} : Derives .stmts ss → Derives .block (.lbrace :: ss ++ [.rbrace])
  | single {s} : Derives .stmt s → Derives .block s
  | noStmts : Derives .stmts []
  | moreStmts {s ss} : Derives .stmt s → Derives .stmts ss → Derives .stmts (s ++ ss)
  | declare {k e} : k ∈ [TokenKind.kwLet, .kwConst] → Derives .expr e →
      Derives .stmt (k :: .ident :: .assign :: e ++ [.semi])
  | assign {op e} : op ∈ assignmentOperators → Derives .expr e →
      Derives .stmt (.ident :: op :: e ++ [.semi])
  | callStmt {c} : Derives .call c → Derives .stmt (c ++ [.semi])
  | ifThen {c y} : Derives .expr c → Derives .block y → Derives .stmt (.kwIf :: c ++ y)
  | ifThenElse {c y n} : Derives .expr c → Derives .block y → Derives .block n →
      Derives .stmt (.kwIf :: c ++ y ++ .kwElse :: n)
  | whileDo {c b} : Derives .expr c → Derives .block b → Derives .stmt (.kwWhile :: c ++ b)
  | doWhile {b c} : Derives .block b → Derives .expr c →
      Derives .stmt (.kwDo :: b ++ .kwWhile :: c ++ [.semi])
  | forCount {a d z b} : Derives .expr a → d ∈ [TokenKind.kwTo, .kwDownto] → Derives .expr z →
      Derives .block b → Derives .stmt (.kwFor :: .ident :: .assign :: a ++ d :: z ++ b)
  | brk : Derives .stmt [.kwBreak, .semi]
  | cont : Derives .stmt [.kwContinue, .semi]
  | ret : Derives .stmt [.kwReturn, .semi]
  | retValue {e} : Derives .expr e → Derives .stmt (.kwReturn :: e ++ [.semi])
  -- expressions
  | plain {e} : Derives (.level precedence) e → Derives .expr e
  | ternary {c y n} : Derives (.level precedence) c → Derives .expr y → Derives .expr n →
      Derives .expr (c ++ .question :: y ++ .colon :: n)
  | tighter {kinds levels e} : Derives (.level levels) e → Derives (.level (kinds :: levels)) e
  | binary {kinds levels l op r} : Derives (.level (kinds :: levels)) l → op ∈ kinds →
      Derives (.level levels) r → Derives (.level (kinds :: levels)) (l ++ op :: r)
  | tightest {e} : Derives .unary e → Derives (.level []) e
  | unary {op e} : op ∈ unaryOperators → Derives .unary e → Derives .unary (op :: e)
  | unsigned {e} : Derives .primary e → Derives .unary e
  | atom {k} : k ∈ atoms → Derives .primary [k]
  | paren {e} : Derives .expr e → Derives .primary (.lparen :: e ++ [.rparen])
  | called {c} : Derives .call c → Derives .primary c
  | callNoArgs : Derives .call [.ident, .lparen, .rparen]
  | callArgs {as} : Derives .args as → Derives .call (.ident :: .lparen :: as ++ [.rparen])
  | arg {e} : Derives .expr e → Derives .args e
  | moreArgs {e as} : Derives .expr e → Derives .args as → Derives .args (e ++ .comma :: as)

/-! ## First tokens -/

/-- The first tokens of an expression without a sign. -/
def primaryFirst : List (Option TokenKind) := (.lparen :: atoms).map some

/-- The first tokens of a statement. -/
def stmtFirst : List (Option TokenKind) :=
  [some .kwLet, some .kwConst, some .ident, some .kwIf, some .kwWhile, some .kwDo, some .kwFor,
    some .kwBreak, some .kwContinue, some .kwReturn]

/-- The first tokens of an expression. -/
def exprFirst : List (Option TokenKind) := unaryOperators.map some ++ primaryFirst

/-- What a phrase can begin with: a token, or nothing if the phrase may be empty. -/
def Phrase.first : Phrase → List (Option TokenKind)
  | .program => none :: some .type :: stmtFirst
  | .funcDecl | .params => [some .type]
  | .block => some .lbrace :: stmtFirst
  | .stmts => none :: stmtFirst
  | .stmt => stmtFirst
  | .expr | .level _ | .unary | .args => exprFirst
  | .primary => primaryFirst
  | .call => [some .ident]

/-- What follows a phrase that is not empty does not change how it begins. -/
theorem head?_append_mem {os os' : List (Option TokenKind)} {w w' : List TokenKind}
    (h : w.head? ∈ os) (hnone : none ∉ os) (hsub : os ⊆ os') : (w ++ w').head? ∈ os' := by
  cases w with
  | nil => exact absurd h hnone
  | cons k w => exact hsub h

/-- A derivation begins as its phrase demands. -/
theorem Derives.head {p : Phrase} {w : List TokenKind} (h : Derives p w) : w.head? ∈ p.first := by
  have hexpr : none ∉ exprFirst := by decide
  induction h with
  | noItems | noStmts | funcDecl | funcDeclParams | param | moreParams | braced | callNoArgs
  | callArgs | paren => exact List.mem_cons_self
  | func _ _ ih | topStmt _ _ ih | moreStmts _ _ ih | callStmt _ ih =>
      exact head?_append_mem ih (by decide) (by decide)
  | single _ ih => exact List.mem_cons_of_mem _ ih
  | declare hk => exact (by decide : ∀ k ∈ [TokenKind.kwLet, .kwConst], some k ∈ stmtFirst) _ hk
  | assign | ifThen | ifThenElse | whileDo | doWhile | forCount | brk | cont | ret | retValue =>
      simp [Phrase.first, stmtFirst]
  | plain _ ih | tighter _ ih | tightest _ ih | arg _ ih => exact ih
  | ternary _ _ _ ih =>
      rw [List.append_assoc]
      exact head?_append_mem ih hexpr (List.Subset.refl _)
  | binary _ _ _ ih | moreArgs _ _ ih => exact head?_append_mem ih hexpr (List.Subset.refl _)
  | unary hop => exact List.mem_append_left _ (List.mem_map_of_mem hop)
  | unsigned _ ih => exact List.mem_append_right _ ih
  | atom hk => exact List.mem_map_of_mem (List.mem_cons_of_mem _ hk)
  | called _ ih => exact (by decide : Phrase.call.first ⊆ Phrase.primary.first) ih

end Pigeon.Grammar
