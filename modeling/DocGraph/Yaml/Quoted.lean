import DocGraph.Fault
import DocGraph.Yaml.Cursor

/-!
# Quoted scalars

Between single quotes a quote is written twice and nothing else is special. Between double quotes a
backslash begins an escape. In both, a line break with the blanks around it is folded: one break
becomes a space, and each further one stays.
-/

namespace DocGraph.Yaml

/-- The line breaks that follow, with the blanks between them passed over, and what is left. A mark
between documents may not stand inside a quoted scalar. -/
def foldedBreaks (s : List Char) : Except Fault (List Char × List Char) :=
  if startsMark s then .error .malformed
  else
    match _h : s.dropWhile isSpaceOrTab with
    | [] => .ok ([], [])
    | b :: rest =>
      if isBreak b then do
        let (breaks, rest) ← foldedBreaks rest
        return (b :: breaks, rest)
      else .ok ([], b :: rest)
termination_by s.length
decreasing_by
  have := (List.dropWhile_sublist (l := s) isSpaceOrTab).length_le
  rw [_h] at this
  simp at this
  omega

/-- What one line break and the breaks after it stand for. -/
def fold (first : Char) (breaks : List Char) : List Char :=
  if first ≠ '\n' then first :: breaks
  else if breaks.isEmpty then [' '] else breaks

/-! ### Escapes -/

/-- The character that a letter after a backslash stands for. -/
def escapeFor? : Char → Option Char
  | '0' => some '\x00'
  | 'a' => some '\x07'
  | 'b' => some '\x08'
  | 't' | '\t' => some '\t'
  | 'n' => some '\n'
  | 'v' => some '\x0b'
  | 'f' => some '\x0c'
  | 'r' => some '\r'
  | 'e' => some '\x1b'
  | ' ' => some ' '
  | '"' => some '"'
  | '\\' => some '\\'
  | '/' => some '/'
  | 'N' => some '\x85'
  | '_' => some '\xa0'
  | 'L' => some '\u2028'
  | 'P' => some '\u2029'
  | _ => none

/-- How many digits of base sixteen follow a letter after a backslash. -/
def escapeWidth? : Char → Option Nat
  | 'x' => some 2
  | 'u' => some 4
  | 'U' => some 8
  | _ => none

/-- The code point with the given number, which may be only half of a character. -/
def pointOfCode (n : Nat) : Except Fault Text.CodePoint :=
  if n < 0x110000 then .ok (.ofNumber n)
  else if n < 0x80000000 then .error .beyondUnicode
  else .error .beyondRange

/-- What an escape stands for, and what is left after it. An escaped line break stands for the breaks
that follow it. -/
def escape : List Char → Except Fault (List Char × List Char)
  | [] => .error .malformed
  | c :: s =>
    match escapeFor? c, escapeWidth? c with
    | some x, _ => .ok ([x], s)
    | none, some width =>
      let digits := s.take width
      if digits.length = width ∧ digits.all isHexDigit then do
        return ((← pointOfCode (hexValue digits)).kept, s.drop width)
      else .error .malformed
    | none, none => if isBreak c then foldedBreaks s else .error .malformed

/-! ### Bodies -/

/-- The text up to the closing quote, and what is left after the quote. Each round takes at least one
character, so as many rounds as there are characters suffice. -/
def quotedBody (double : Bool) : Nat → List Char → Except Fault (List Char × List Char)
  | 0, _ | _, [] => .error .malformed
  | rounds + 1, c :: s =>
    let continue' (part : List Char) (rest : List Char) : Except Fault (List Char × List Char) := do
      let (text, rest) ← quotedBody double rounds rest
      return (part ++ text, rest)
    if isSpaceOrTab c || isBreak c then
      match (c :: s).dropWhile isSpaceOrTab with
      | [] => .error .malformed
      | b :: rest =>
        if isBreak b then do
          let (breaks, rest) ← foldedBreaks rest
          continue' (fold b breaks) rest
        else continue' ((c :: s).takeWhile isSpaceOrTab) (b :: rest)
    else if double then
      if c = '"' then .ok ([], s)
      else if c = '\\' then do
        let (part, rest) ← escape s
        continue' part rest
      else continue' [c] s
    else if c = '\'' then
      match s with
      | '\'' :: rest => continue' ['\''] rest
      | _ => .ok ([], s)
    else continue' [c] s

/-- A quoted scalar after its opening quote. -/
def quotedScalar (double : Bool) (s : List Char) : Except Fault (List Char × List Char) :=
  quotedBody double s.length s

end DocGraph.Yaml
