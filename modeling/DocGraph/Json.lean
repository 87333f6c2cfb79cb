import DocGraph.Number.Layout
import DocGraph.Text.Half

/-!
# JSON text

Trees of JSON and their two written forms: on one line, and spread over lines with an indent of two.
Both write ASCII only; other characters are escaped by their UTF-16 units.
-/

namespace DocGraph

/-- A JSON tree. Objects keep the order of their keys. -/
inductive Json
  | null
  | bool (b : Bool)
  | int (n : Int)
  | float (x : Float)
  | text (s : String)
  | array (xs : List Json)
  | object (ps : List (String × Json))
  deriving Repr, Inhabited

namespace Json

/-- Floating-point numbers have the layout of documents, with words of their own for what is not
finite. -/
def floatLayout : Number.Layout where
  positionalFrom := -4
  positionalTo := 16
  exponentDigits := 2
  nan := "NaN"
  infinity := "Infinity"

/-! ### Texts -/

/-- A digit of base sixteen. -/
def hexDigit (n : Nat) : Char := (Nat.toDigits 16 (n % 16)).headD '0'

/-- The escape of a UTF-16 unit. -/
def escapeUnit (n : Nat) : List Char :=
  ['\\', 'u', hexDigit (n / 4096), hexDigit (n / 256), hexDigit (n / 16), hexDigit n]

/-- A whole character inside a JSON text. -/
def escapeChar (c : Char) : List Char :=
  if c = '"' then ['\\', '"']
  else if c = '\\' then ['\\', '\\']
  else if c = '\n' then ['\\', 'n']
  else if c = '\r' then ['\\', 'r']
  else if c = '\t' then ['\\', 't']
  else if c = '\x08' then ['\\', 'b']
  else if c = '\x0c' then ['\\', 'f']
  else if 0x20 ≤ c.toNat ∧ c.toNat < 0x7F then [c]
  else
    let n := c.toNat
    if n < 0x10000 then escapeUnit n
    else escapeUnit (0xD800 + (n - 0x10000) / 0x400) ++ escapeUnit (0xDC00 + (n - 0x10000) % 0x400)

/-- A code point inside a JSON text. -/
def escapePoint : Text.CodePoint → List Char
  | .char c => escapeChar c
  | p => escapeUnit p.number

/-- A text between double quotes. -/
def quoteText (s : String) : String :=
  String.ofList ('"' :: (Text.points s).flatMap escapePoint ++ ['"'])

/-! ### One line -/

mutual

/-- A tree on one line. -/
def compact : Json → String
  | .null => "null"
  | .bool b => if b then "true" else "false"
  | .int n => toString n
  | .float x => floatLayout.write x
  | .text s => quoteText s
  | .array xs => "[" ++ ", ".intercalate (compactList xs) ++ "]"
  | .object ps => "\x7b" ++ ", ".intercalate (compactPairs ps) ++ "\x7d"

/-- The items of an array, each on one line. -/
def compactList : List Json → List String
  | [] => []
  | j :: js => j.compact :: compactList js

/-- The pairs of an object, each on one line. -/
def compactPairs : List (String × Json) → List String
  | [] => []
  | (key, j) :: ps => (quoteText key ++ ": " ++ j.compact) :: compactPairs ps

end

/-! ### Several lines -/

/-- A line break and the indent of the given depth. -/
def lineBreak (depth : Nat) : String := "\n" ++ String.ofList (List.replicate (2 * depth) ' ')

/-- Parts between brackets, each on a line of its own; nothing between them if there is no part. -/
def block (depth : Nat) (opening closing : String) (parts : List String) : String :=
  match parts with
  | [] => opening ++ closing
  | parts =>
    opening ++ lineBreak (depth + 1) ++ ("," ++ lineBreak (depth + 1)).intercalate parts ++
      lineBreak depth ++ closing

mutual

/-- A tree over several lines, at the given depth. -/
def spread (depth : Nat) : Json → String
  | .array xs => block depth "[" "]" (spreadList (depth + 1) xs)
  | .object ps => block depth "\x7b" "\x7d" (spreadPairs (depth + 1) ps)
  | j => j.compact

/-- The items of an array, each over several lines. -/
def spreadList (depth : Nat) : List Json → List String
  | [] => []
  | j :: js => j.spread depth :: spreadList depth js

/-- The pairs of an object, each over several lines. -/
def spreadPairs (depth : Nat) : List (String × Json) → List String
  | [] => []
  | (key, j) :: ps => (quoteText key ++ ": " ++ j.spread depth) :: spreadPairs depth ps

end

/-- A tree over several lines. -/
def indented (j : Json) : String := j.spread 0

end Json

end DocGraph
