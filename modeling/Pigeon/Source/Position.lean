/-!
# Positions and spans

A position is a line and a column, both counted from one; columns count code points. A span is the
text from one position up to, and not including, another.
-/

namespace Pigeon

/-- A place in source text. -/
structure Position where
  line : Int
  column : Int
  deriving DecidableEq, Repr

namespace Position

/-- The position of the first character. -/
def first : Position := ⟨1, 1⟩

/-- The position after the character `c`. -/
def next (p : Position) (c : Char) : Position :=
  if c = '\n' then ⟨p.line + 1, 1⟩ else ⟨p.line, p.column + 1⟩

/-- The position after the characters `cs`. -/
def after (p : Position) (cs : List Char) : Position :=
  cs.foldl next p

@[simp]
theorem after_nil (p : Position) : p.after [] = p := rfl

@[simp]
theorem after_cons (p : Position) (c : Char) (cs : List Char) :
    p.after (c :: cs) = (p.next c).after cs := rfl

/-- Positions accumulate over a concatenation. -/
theorem after_append (p : Position) (cs ds : List Char) :
    p.after (cs ++ ds) = (p.after cs).after ds := by
  simp [after, List.foldl_append]

end Position

/-- The text between two positions, the second one excluded. -/
structure Span where
  start : Position
  stop : Position
  deriving DecidableEq, Repr

end Pigeon
