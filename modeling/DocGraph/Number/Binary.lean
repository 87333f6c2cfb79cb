/-!
# Binary fractions

A finite floating-point number is exactly a sign, a natural number and a power of two. All exact
questions about such numbers, their order beside integers and their integer part, are asked of this
form.
-/

namespace DocGraph.Number

/-- The number `± mantissa · 2 ^ exponent`. -/
structure Binary where
  negative : Bool
  mantissa : Nat
  exponent : Int
  deriving DecidableEq, Repr

/-- What a floating-point number is. -/
inductive Parts
  | finite (b : Binary)
  | infinite (negative : Bool)
  | nan
  deriving DecidableEq, Repr

/-- Take a double-precision number apart. -/
def Parts.ofFloat (x : Float) : Parts :=
  let bits := x.toBits.toNat
  let negative := bits / Nat.pow 2 63 == 1
  let exponent : Nat := bits / Nat.pow 2 52 % Nat.pow 2 11
  let fraction : Nat := bits % Nat.pow 2 52
  if exponent = 2047 then
    if fraction = 0 then .infinite negative else .nan
  else if exponent = 0 then .finite ⟨negative, fraction, -1074⟩
  else .finite ⟨negative, Nat.pow 2 52 + fraction, (exponent : Int) - 1075⟩

namespace Binary

/-- Attach the sign to a magnitude. -/
def signed (b : Binary) (n : Nat) : Int := if b.negative then -(n : Int) else n

/-- The integer part: the fraction is cut off toward zero. -/
def truncate (b : Binary) : Int :=
  b.signed <|
    if 0 ≤ b.exponent then b.mantissa * Nat.pow 2 b.exponent.toNat
    else b.mantissa / Nat.pow 2 (-b.exponent).toNat

/-- Numerator and denominator. -/
def fraction (b : Binary) : Int × Nat :=
  if 0 ≤ b.exponent then (b.signed (b.mantissa * Nat.pow 2 b.exponent.toNat), 1)
  else (b.signed b.mantissa, Nat.pow 2 (-b.exponent).toNat)

end Binary

/-! ### Order -/

/-- Numbers as far as they can be compared: integers and floating-point numbers side by side. -/
inductive Real
  | fraction (num : Int) (den : Nat)
  | infinite (negative : Bool)
  | nan
  deriving DecidableEq, Repr

/-- An integer as a fraction. -/
def Real.ofInt (n : Int) : Real := .fraction n 1

/-- The exact value of a floating-point number. -/
def Real.ofFloat (x : Float) : Real :=
  match Parts.ofFloat x with
  | .finite b => .fraction b.fraction.1 b.fraction.2
  | .infinite s => .infinite s
  | .nan => .nan

/-- The order of two numbers; none if one of them is not a number. -/
def Real.compare? : Real → Real → Option Ordering
  | .nan, _ | _, .nan => none
  | .infinite a, .infinite b => some (if a = b then .eq else if a then .lt else .gt)
  | .infinite a, _ => some (if a then .lt else .gt)
  | _, .infinite b => some (if b then .gt else .lt)
  | .fraction n d, .fraction n' d' => some (Ord.compare (n * d') (n' * d))

end DocGraph.Number
