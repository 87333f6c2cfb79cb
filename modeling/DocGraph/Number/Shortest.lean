import DocGraph.Number.Binary

/-!
# Shortest decimals

The decimal form of a binary fraction is the one with the fewest digits among all decimals that read
back as it, that is, among those in the interval of numbers that round to it; of two such decimals
with equally many digits the nearer one is taken.

For a given number of digits the decimals form a grid, and if any point of the grid lies in the
interval, so does one of the two around the number itself.
-/

namespace DocGraph.Number

/-- The decimal `coefficient · 10 ^ exponent`. -/
structure Decimal where
  coefficient : Nat
  exponent : Int
  deriving DecidableEq, Repr

/-- The numbers that round to one binary fraction: `low / den` to `high / den`, the ends included if
`closed`, with the fraction itself at `mid / den`. -/
structure Interval where
  low : Nat
  mid : Nat
  high : Nat
  den : Nat
  closed : Bool

namespace Interval

/-- The rounding interval of `mantissa · 2 ^ exponent`. The gap below a power of two is half the gap
above it; ties round to an even mantissa. -/
def ofBinary (mantissa : Nat) (exponent : Int) : Interval :=
  let below := if mantissa = Nat.pow 2 52 ∧ exponent ≠ -1074 then 1 else 2
  let scale := if 2 ≤ exponent then Nat.pow 2 (exponent - 2).toNat else 1
  { low := (4 * mantissa - below) * scale
    mid := 4 * mantissa * scale
    high := (4 * mantissa + 2) * scale
    den := if 2 ≤ exponent then 1 else Nat.pow 2 (2 - exponent).toNat
    closed := mantissa % 2 = 0 }

/-- The interval measured in units of `10 ^ exponent`. -/
def inUnits (i : Interval) (exponent : Int) : Interval :=
  if 0 ≤ exponent then { i with den := i.den * Nat.pow 10 exponent.toNat }
  else
    let f := Nat.pow 10 (-exponent).toNat
    { i with low := i.low * f, mid := i.mid * f, high := i.high * f }

/-- Whether a whole number of units lies in the interval. -/
def holds (i : Interval) (n : Nat) : Bool :=
  if i.closed then i.low ≤ n * i.den && n * i.den ≤ i.high
  else i.low < n * i.den && n * i.den < i.high

/-- The nearer of the whole numbers of units around the middle that lie in the interval; of two
equally near ones the even one. -/
def nearest? (i : Interval) : Option Nat :=
  let n := i.mid / i.den
  let rest := i.mid % i.den
  match i.holds n, i.holds (n + 1) with
  | true, false => some n
  | false, true => some (n + 1)
  | false, false => none
  | true, true =>
    some <| if 2 * rest < i.den then n
      else if i.den < 2 * rest then n + 1
      else if n % 2 = 0 then n else n + 1

/-- The exponent of the first decimal digit of the middle, which is not zero. -/
def leading (i : Interval) : Int :=
  if i.den ≤ i.mid then ((Nat.toDigits 10 (i.mid / i.den)).length : Int) - 1
  else
    let places := (Nat.toDigits 10 (i.den / i.mid)).length - 1
    if i.den ≤ i.mid * Nat.pow 10 places then -(places : Int) else -(places : Int) - 1

end Interval

/-- The shortest decimal that reads back as `mantissa · 2 ^ exponent`. Seventeen digits always do. -/
def Decimal.shortest (mantissa : Nat) (exponent : Int) : Decimal :=
  if mantissa = 0 then ⟨0, 0⟩
  else
    let i := Interval.ofBinary mantissa exponent
    let grid (digits : Nat) : Option Decimal :=
      let unit := i.leading - (digits : Int) + 1
      ((i.inUnits unit).nearest?).map fun n =>
        if n = Nat.pow 10 digits then ⟨1, unit + digits⟩ else ⟨n, unit⟩
    ((List.range 17).findSome? fun k => grid (k + 1)).getD ⟨0, 0⟩

end DocGraph.Number
