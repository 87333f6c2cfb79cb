import DocGraph.Number.Limit
import DocGraph.Text.Blank
import DocGraph.Text.Digit

/-!
# Reading numbers

Whole numbers in any base up to thirty-six, with single underscores between their digits, and
decimal fractions. Decimal digits of every script are understood, and blanks around a number do not
matter unless they are separators of ASCII.
-/

namespace DocGraph.Number

/-- White space that may stand around a number: all but the four separators of ASCII. -/
def isPadding (c : Char) : Bool := Text.isBlank c && !(0x1C ≤ c.toNat && c.toNat ≤ 0x1F)

/-- The characters of a number without the white space around it. -/
def unpadded (s : String) : List Char :=
  ((s.toList.dropWhile isPadding).reverse.dropWhile isPadding).reverse

/-- The sign of a number and the characters after it. -/
def splitSign : List Char → Bool × List Char
  | '-' :: s => (true, s)
  | '+' :: s => (false, s)
  | s => (false, s)

/-! ### Whole numbers -/

/-- The value of a digit or letter in the given base. -/
def digitIn? (base : Nat) (c : Char) : Option Nat :=
  let value := match Text.digitValue? c with
    | some n => some n
    | none =>
      if 'a' ≤ c ∧ c ≤ 'z' then some (c.toNat - 'a'.toNat + 10)
      else if 'A' ≤ c ∧ c ≤ 'Z' then some (c.toNat - 'A'.toNat + 10)
      else none
  value.filter (· < base)

/-- Read the remaining digits after a number read so far; an underscore may stand only between two
digits. -/
def digitsFrom? (base : Nat) (value : Nat) (afterDigit : Bool) : List Char → Option Nat
  | [] => if afterDigit then some value else none
  | c :: s =>
    if c = '_' then
      if afterDigit then digitsFrom? base value false s else none
    else match digitIn? base c with
      | some d => digitsFrom? base (value * base + d) true s
      | none => none

/-- The letter that may follow a zero to announce a base. -/
def baseMark? : Nat → Option Char
  | 2 => some 'b'
  | 8 => some 'o'
  | 16 => some 'x'
  | _ => none

/-- Drop the announcement of the base. One underscore may follow it. -/
def dropBaseMark (base : Nat) : List Char → List Char
  | '0' :: c :: s =>
    if baseMark? base = some c.toLower then
      match s with
      | '_' :: d :: s => if d = '_' then '_' :: d :: s else d :: s
      | s => s
    else '0' :: c :: s
  | s => s

/-- How many digits a number begins with. There is no such number where underscores are out of
place. -/
def digitCount? (base : Nat) (count : Nat) (afterDigit : Bool) : List Char → Option Nat
  | [] => if afterDigit then some count else none
  | c :: s =>
    if c = '_' then
      if afterDigit then digitCount? base count false s else none
    else if (digitIn? base c).isSome then digitCount? base (count + 1) true s
    else if afterDigit then some count else none

/-- Why a text is read as no whole number. -/
inductive Flaw
  /-- It does not have the form of one. -/
  | form
  /-- It has more digits than are read. -/
  | digits (count : Nat)
  deriving DecidableEq, Repr

/-- A whole number in the given base, with an optional sign and white space around it. Too many digits
are a flaw even if something else follows them. -/
def integer (base : Nat) (s : String) : Except Flaw Int :=
  let (negative, s) := splitSign (unpadded s)
  let s := dropBaseMark base s
  match (digitCount? base 0 false s).filter fun n => isLimited base && digitLimit < n with
  | some n => .error (.digits n)
  | none =>
    match digitsFrom? base 0 false s with
    | some n => .ok (if negative then -(n : Int) else n)
    | none => .error .form

/-! ### Fractions -/

/-- The number nearest to `coefficient · 10 ^ exponent`. -/
def nearest (coefficient : Nat) (exponent : Int) : Float :=
  let size := (Nat.toDigits 10 coefficient).length + exponent
  if coefficient = 0 ∨ size < -330 then 0.0
  else if 310 < size then 1.0 / 0.0
  else if exponent < 0 then Float.ofScientific coefficient true exponent.natAbs
  else Float.ofScientific coefficient false exponent.toNat

/-- A run of digits: how many there are, their value, and what follows. Single underscores may stand
between digits. -/
def digitRun (count value : Nat) : List Char → Nat × Nat × List Char
  | [] => (count, value, [])
  | c :: s =>
    match Text.digitValue? c with
    | some d => digitRun (count + 1) (value * 10 + d) s
    | none =>
      match c, s with
      | '_', d :: s' =>
        if 0 < count then
          match Text.digitValue? d with
          | some n => digitRun (count + 1) (value * 10 + n) s'
          | none => (count, value, c :: s)
        else (count, value, c :: s)
      | _, _ => (count, value, c :: s)
termination_by s => s.length

/-- A decimal without sign: digits, of which a point may stand anywhere, and an exponent. -/
def decimal? (s : List Char) : Option Float := do
  let (whole, value, s) := digitRun 0 0 s
  let (places, value, s) := match s with
    | '.' :: s =>
      match s with
      | '_' :: _ => (0, value, s)
      | _ =>
        let (places, fraction, s) := digitRun 0 0 s
        (places, value * Nat.pow 10 places + fraction, s)
    | s => (0, value, s)
  guard (0 < whole + places)
  match s with
  | [] => pure (nearest value (-places))
  | c :: s =>
    guard (c = 'e' ∨ c = 'E')
    let (negative, s) := splitSign s
    let (count, exponent, s) := digitRun 0 0 s
    guard (0 < count ∧ s.isEmpty)
    pure (nearest value ((if negative then -(exponent : Int) else exponent) - places))

/-- A floating-point number: a decimal, or a word for infinity or for what is not a number. -/
def float? (s : String) : Option Float :=
  let (negative, s) := splitSign (unpadded s)
  let word := String.ofList (s.map Char.toLower)
  let magnitude :=
    if word = "inf" ∨ word = "infinity" then some (1.0 / 0.0)
    else if word = "nan" then some (0.0 / 0.0)
    else decimal? s
  magnitude.map fun x => if negative then -x else x

end DocGraph.Number
