import Pigeon.Text.Range

/-!
# Blank characters

The characters that count as blank space around a line of input: the bidirectional types `WS`,
`B` and `S` and the space separators.
-/

namespace Pigeon.Text

/-- The code points of the blank characters, in increasing order. -/
def blankRanges : List (Nat × Nat) := [
    (0x9, 0xD), (0x1C, 0x20), (0x85, 0x85), (0xA0, 0xA0),
    (0x1680, 0x1680), (0x2000, 0x200A), (0x2028, 0x2029), (0x202F, 0x202F),
    (0x205F, 0x205F), (0x3000, 0x3000)]

/-- A blank character. -/
def isBlank (c : Char) : Bool :=
  inRanges blankRanges c

/-- Removes the characters that satisfy `p` from the end. -/
def trimEnd (p : Char → Bool) (cs : List Char) : List Char :=
  (cs.reverse.dropWhile p).reverse

/-- Removes the blank characters from both ends. -/
def trim (cs : List Char) : List Char :=
  trimEnd isBlank (cs.dropWhile isBlank)

end Pigeon.Text
