/-!
# Shortest decimals

A finite double is `m * 2 ^ q`. The reals that round to it form an interval, which holds its end
points exactly if `m` is even. Of all decimals in that interval one with the fewest significant
digits is taken, and of those the one nearest to the double.

The search goes through the grids of one, two, up to seventeen significant digits. On each grid it
looks at the two neighbours of the double only: if any point of the grid lies in the interval, so
does one of them.
-/

namespace Pigeon

/-- The decimal `digits * 10 ^ exponent`. -/
structure Decimal where
  digits : Nat
  exponent : Int
  deriving DecidableEq, Repr

namespace Decimal

/-- A positive dyadic number `mantissa * 2 ^ exponent`. -/
structure Dyadic where
  mantissa : Nat
  exponent : Int
  /-- The gap to the next smaller double is half of the gap to the next larger one. -/
  narrowBelow : Bool

/-- The number of decimal digits of `n`. -/
def digitCount (n : Nat) : Nat :=
  (Nat.toDigits 10 n).length

/-- The interval of the reals that round to a double, as fractions over a common denominator. -/
structure Interval where
  low : Nat
  value : Nat
  high : Nat
  denominator : Nat
  closed : Bool

/-- The interval of `d`, with all four numbers scaled by the same power of two. -/
def Interval.ofDyadic (d : Dyadic) : Interval :=
  let up := Nat.pow 2 d.exponent.toNat
  let down := Nat.pow 2 (-d.exponent).toNat
  { low := (4 * d.mantissa - if d.narrowBelow then 1 else 2) * up
    value := 4 * d.mantissa * up
    high := (4 * d.mantissa + 2) * up
    denominator := 4 * down
    closed := d.mantissa % 2 = 0 }

/-- The decimal `n * 10 ^ e`, as a fraction: numerator and denominator. -/
def fraction (n : Nat) (e : Int) : Nat × Nat :=
  (n * Nat.pow 10 e.toNat, Nat.pow 10 (-e).toNat)

/-- The decimal `n * 10 ^ e` lies in the interval. -/
def Interval.contains (i : Interval) (n : Nat) (e : Int) : Bool :=
  let (num, den) := fraction n e
  let scaled := num * i.denominator
  if i.closed then i.low * den ≤ scaled && scaled ≤ i.high * den
  else i.low * den < scaled && scaled < i.high * den

/-- The decimal exponent of the value: the largest `k` with `10 ^ k` at most the value. -/
def Interval.magnitude (i : Interval) : Int :=
  let shift := digitCount i.denominator
  (digitCount (i.value * Nat.pow 10 shift / i.denominator) : Int) - 1 - shift

/-- The better of the two neighbours of the value on the grid of multiples of `10 ^ e`, if one of
them lies in the interval. Of two, the nearer one is better, and the even one in a tie. -/
def Interval.pick? (i : Interval) (e : Int) : Option Decimal :=
  let numerator := i.value * Nat.pow 10 (-e).toNat
  let denominator := i.denominator * Nat.pow 10 e.toNat
  let below := numerator / denominator
  let rest := numerator % denominator
  let upper := 2 * rest > denominator || (2 * rest = denominator && below % 2 = 1)
  match i.contains below e, i.contains (below + 1) e with
  | true, true => some ⟨if upper then below + 1 else below, e⟩
  | true, false => some ⟨below, e⟩
  | false, true => some ⟨below + 1, e⟩
  | false, false => none

/-- The first hit on the grids of `n`, `n + 1`, … significant digits. -/
def Interval.search (i : Interval) (magnitude : Int) : (fuel n : Nat) → Decimal
  | 0, _ => ⟨i.value / i.denominator, 0⟩
  | fuel + 1, n =>
    match i.pick? (magnitude - n + 1) with
    | some d => d
    | none => i.search magnitude fuel (n + 1)

/-- The shortest decimal that rounds to `d`. -/
def shortest (d : Dyadic) : Decimal :=
  let i := Interval.ofDyadic d
  i.search i.magnitude 17 1

end Decimal

end Pigeon
