import Pigeon.Decimal.Shortest

/-!
# Text of doubles

A double is written with the digits of its shortest decimal. Numbers of moderate size are written
with a point and at least one digit on either side of it, all others with one digit before the
point and an exponent.
-/

namespace Pigeon.Decimal

/-- The decisions of a way to write decimals. -/
structure Layout where
  /-- The least decimal exponent that is written without an exponent. -/
  positionalFrom : Int
  /-- The least decimal exponent above these that is written with an exponent again. -/
  positionalBelow : Int
  /-- The least number of digits of an exponent. -/
  exponentWidth : Nat

/-- Removes the zeros at the end of a list of digits. -/
def dropTrailingZeros (digits : List Char) : List Char :=
  (digits.reverse.dropWhile (· = '0')).reverse

/-- The exponent mark with a sign and at least the least number of digits. -/
def Layout.exponentText (l : Layout) (e : Int) : List Char :=
  let digits := Nat.toDigits 10 e.natAbs
  'e' :: (if e < 0 then '-' else '+') ::
    (List.replicate (l.exponentWidth - digits.length) '0' ++ digits)

/-- Places the point among the digits of a number with leading digit at `10 ^ e`. -/
def positional (digits : List Char) (e : Int) : List Char :=
  if e < 0 then
    '0' :: '.' :: (List.replicate (-e - 1).toNat '0' ++ digits)
  else
    let whole := e.toNat + 1
    if digits.length ≤ whole then
      digits ++ List.replicate (whole - digits.length) '0' ++ ['.', '0']
    else digits.take whole ++ '.' :: digits.drop whole

/-- One digit, the point if more digits follow, and the exponent. -/
def Layout.scientific (l : Layout) (digits : List Char) (e : Int) : List Char :=
  match digits with
  | [] => l.exponentText e
  | [d] => d :: l.exponentText e
  | d :: more => d :: '.' :: more ++ l.exponentText e

/-- The text of a positive decimal. -/
def Layout.write (l : Layout) (d : Decimal) : List Char :=
  let all := Nat.toDigits 10 d.digits
  let e := d.exponent + all.length - 1
  let digits := dropTrailingZeros all
  if l.positionalFrom ≤ e && e < l.positionalBelow then positional digits e
  else l.scientific digits e

/-- The number of fractions of a double: a fraction has 52 bits. -/
def fractions : Nat := 0x10000000000000

/-- The number of biased exponents of a double: an exponent has 11 bits. -/
def exponents : Nat := 0x800

/-- The fields of the bit pattern of a double: sign, biased exponent, fraction. -/
def fields (bits : UInt64) : Bool × Nat × Nat :=
  (bits.toNat / fractions / exponents = 1, bits.toNat / fractions % exponents,
    bits.toNat % fractions)

/-- The magnitude of a finite double other than zero. -/
def dyadic (biased fraction : Nat) : Dyadic :=
  if biased = 0 then ⟨fraction, -1074, false⟩
  else ⟨fractions + fraction, (biased : Int) - 1075, fraction = 0 && 1 < biased⟩

/-- The text of the double with the given bit pattern. -/
def Layout.writeBits (l : Layout) (bits : UInt64) : List Char :=
  let (negative, biased, fraction) := fields bits
  let sign := if negative then ['-'] else []
  if biased = exponents - 1 then
    if fraction = 0 then sign ++ ['i', 'n', 'f'] else ['n', 'a', 'n']
  else if biased = 0 && fraction = 0 then sign ++ ['0', '.', '0']
  else sign ++ l.write (shortest (dyadic biased fraction))

/-- The text of a double. -/
def Layout.text (l : Layout) (x : Float) : String :=
  String.ofList (l.writeBits x.toBits)

end Pigeon.Decimal
