import DocGraph.Text.Half
import DocGraph.Text.Printable

/-!
# Quoted text

A text is shown between single quotes, or between double quotes if it holds a single quote and no
double one. Backslashes, the quote in use and characters that are not printable are escaped; a half is
escaped by its unit.
-/

namespace DocGraph.Text

/-- A digit of base sixteen in small letters. -/
def hexDigit (n : Nat) : Char := (Nat.toDigits 16 (n % 16)).headD '0'

/-- The `width` low digits of `n` in base sixteen. -/
def hexDigits (width n : Nat) : List Char :=
  (List.range width).reverse.map fun i => hexDigit (n / Nat.pow 16 i)

/-- The quote that needs the fewest escapes. -/
def quoteFor (s : List Char) : Char :=
  if s.contains '\'' && !s.contains '"' then '"' else '\''

/-- The escape that gives the number of a code point. -/
def numberEscape (n : Nat) : List Char :=
  if n < 0x100 then '\\' :: 'x' :: hexDigits 2 n
  else if n < 0x10000 then '\\' :: 'u' :: hexDigits 4 n
  else '\\' :: 'U' :: hexDigits 8 n

/-- One character inside text quoted by `quote`. -/
def quoteChar (quote c : Char) : List Char :=
  if c = quote || c = '\\' then ['\\', c]
  else if c = '\n' then ['\\', 'n']
  else if c = '\r' then ['\\', 'r']
  else if c = '\t' then ['\\', 't']
  else if isPrintable c then [c]
  else numberEscape c.toNat

/-- One code point inside text quoted by `quote`. -/
def quotePoint (quote : Char) : CodePoint → List Char
  | .char c => quoteChar quote c
  | p => numberEscape p.number

/-- A text in quotes. -/
def quoted (s : String) : String :=
  let q := quoteFor s.toList
  String.ofList (q :: (points s).flatMap (quotePoint q) ++ [q])

/-- A text as it is printed: characters as they are, halves by the escapes of their units. -/
def printed (s : String) : String :=
  String.ofList <| (points s).flatMap fun
    | .char c => [c]
    | p => numberEscape p.number

end DocGraph.Text
