import DocGraph.Text.CaseTable

/-!
# Letter case

Full case mapping of Unicode: a capital form may have several characters, and a capital sigma
becomes a final small sigma exactly at the end of a word.
-/

namespace DocGraph.Text

/-- The code point that the first run containing `n` maps it to, or `n` itself. -/
def shiftCase (runs : List CaseRun) (n : Nat) : Nat :=
  (runs.findSome? (CaseRun.image? · n)).getD n

/-- The capital form of a character. -/
def capital (c : Char) : List Char :=
  match wideCapitals.lookup c.toNat with
  | some ns => ns.map Char.ofNat
  | none => [Char.ofNat (shiftCase capitalRuns c.toNat)]

/-- Capitalize the first character of a text and leave the rest alone. -/
def capitalizeFirst (s : String) : String :=
  match s.toList with
  | [] => ""
  | c :: cs => String.ofList (capital c ++ cs)

/-! ### Small letters -/

/-- Whether the nearest character that is not passed over is a letter with case. -/
def meetsCased (s : List Char) : Bool :=
  match s.dropWhile (holdsAt caseIgnorableFlips) with
  | [] => false
  | c :: _ => holdsAt casedFlips c

/-- The small form of a character between the characters `before` it, nearest first, and those
`after` it. A sigma is final if a letter stands before it and none after it; a dotted capital I
keeps its dot. -/
def small (before : List Char) (c : Char) (after : List Char) : List Char :=
  if c = 'Σ' then [if meetsCased before && !meetsCased after then 'ς' else 'σ']
  else if c = 'İ' then ['i', '\u0307']
  else [Char.ofNat (shiftCase smallRuns c.toNat)]

/-- The small form of the characters of `s`, when `before` stands before them, nearest first. -/
def lowerChars (before : List Char) : List Char → List Char
  | [] => []
  | c :: s => small before c s ++ lowerChars (c :: before) s

/-- A text in small letters. -/
def lower (s : String) : String := String.ofList (lowerChars [] s.toList)

end DocGraph.Text
