import Pigeon.Proofs.Grammar.Decides
import Pigeon.Proofs.Grammar.Viable
import Pigeon.Proofs.Step

/-!
# Syntax errors are at the first offending token

The tokens before the token of a syntax error are the beginning of a program, and those up to and
with it are not. The first part holds because what was read is viable. The second one holds because
nothing after the token was looked at: had some other tokens after it made a program, the same error
would have come up while it is read.
-/

namespace Pigeon

open Grammar Token Reader

/-! ## Viable tokens -/

namespace Program

variable {ts w rest : List Token} {eof tok : Token} {filename : Option String}

/-- The tokens end in their only end of file, and are read as a program. -/
def Accepted (filename : Option String) (ts : List Token) : Prop :=
  ∃ inner eof p, ts = inner ++ [eof] ∧ eof.kind = .eof ∧ (∀ t ∈ inner, t.kind ≠ .eof) ∧
    ofTokens ts filename = .ok p

end Program

end Pigeon
