import DocGraph.Number.Shortest

/-!
# Number layout

How a decimal is written: which exponents are written positionally, how an exponent is spelt, and
the words for what is not a finite number.
-/

namespace DocGraph.Number

/-- The decisions of one written form of floating-point numbers. Exponents from `positionalFrom` to
below `positionalTo` are written positionally, always with a fraction; others with the mark `e`, a
sign and at least `exponentDigits` digits. -/
structure Layout where
  positionalFrom : Int
  positionalTo : Int
  exponentDigits : Nat
  nan : String
  infinity : String
  deriving Repr

namespace Layout

/-- A list of digits filled up with zeros on the left. -/
def padded (width : Nat) (ds : List Char) : List Char :=
  List.replicate (width - ds.length) '0' ++ ds

/-- Digits with a point after the first `places` of them, filled up with zeros on either side; at
least one digit stands on each side of the point. -/
def positional (ds : List Char) (places : Int) : List Char :=
  if places ≤ 0 then '0' :: '.' :: List.replicate (-places).toNat '0' ++ ds
  else
    let n := places.toNat
    if ds.length ≤ n then ds ++ List.replicate (n - ds.length) '0' ++ ['.', '0']
    else ds.take n ++ '.' :: ds.drop n

/-- Digits with a point after the first, if there are more, and the exponent of the first. -/
def scientific (l : Layout) (ds : List Char) (exponent : Int) : List Char :=
  let mantissa := match ds with
    | [] => []
    | [d] => [d]
    | d :: ds => d :: '.' :: ds
  let sign := if exponent < 0 then '-' else '+'
  mantissa ++ 'e' :: sign :: padded l.exponentDigits (Nat.toDigits 10 exponent.natAbs)

/-- The digits of a decimal. -/
def decimal (l : Layout) (d : Decimal) : List Char :=
  let ds := Nat.toDigits 10 d.coefficient
  let exponent := d.exponent + ds.length - 1
  if l.positionalFrom ≤ exponent && exponent < l.positionalTo then positional ds (exponent + 1)
  else l.scientific ds exponent

/-- A floating-point number in this layout. -/
def write (l : Layout) (x : Float) : String :=
  match Parts.ofFloat x with
  | .nan => l.nan
  | .infinite negative => if negative then "-" ++ l.infinity else l.infinity
  | .finite b =>
    let ds := l.decimal (Decimal.shortest b.mantissa b.exponent)
    String.ofList (if b.negative then '-' :: ds else ds)

end Layout

end DocGraph.Number
