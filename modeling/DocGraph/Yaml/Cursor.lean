import DocGraph.Text.Half

/-!
# Places in a text

The characters that structure a YAML text, and the place that reading has reached: what is left of the
text, and how far the place is from the start of the text and of its line. Line breaks are the line
feed and the two Unicode separators; `unifyBreaks` writes the other conventional ones as line feeds
beforehand.
-/

namespace DocGraph.Yaml

/-! ### Characters -/

/-- Characters that may occur in a text at all. Halves may not. -/
def isAllowed (c : Char) : Bool :=
  let n := c.toNat
  n == 0x9 || n == 0xA || n == 0xD || (0x20 ≤ n && n ≤ 0x7E) || n == 0x85 ||
    (0xA0 ≤ n && n ≤ 0xD7FF) || (0xE000 ≤ n && n ≤ 0xFFFD && !Text.isHalf c) || 0x10000 ≤ n

/-- Write carriage return, with or without a line feed, and next line as line feeds. -/
def unifyBreaks : List Char → List Char
  | [] => []
  | '\r' :: '\n' :: s => '\n' :: unifyBreaks s
  | c :: s => (if c = '\r' ∨ c = '\x85' then '\n' else c) :: unifyBreaks s

/-- Line breaks. -/
def isBreak (c : Char) : Bool := c == '\n' || c == '\u2028' || c == '\u2029'

/-- Spaces and tabs. -/
def isSpaceOrTab (c : Char) : Bool := c == ' ' || c == '\t'

/-- Whether a line ends here. -/
def endsLine : List Char → Bool
  | [] => true
  | c :: _ => isBreak c

/-- Whether a space, the end of a line or the end of the text stands here. -/
def endsWord : List Char → Bool
  | [] => true
  | c :: _ => c == ' ' || isBreak c

/-- Whether a space, a tab, the end of a line or the end of the text stands here. -/
def isGap : List Char → Bool
  | [] => true
  | c :: _ => isSpaceOrTab c || isBreak c

/-- Whether the line that begins here is a mark between documents. -/
def startsMark : List Char → Bool
  | '-' :: '-' :: '-' :: s | '.' :: '.' :: '.' :: s => isGap s
  | _ => false

/-- Letters, digits, hyphens and underscores, of which names are made. -/
def isNameChar (c : Char) : Bool :=
  ('0' ≤ c && c ≤ '9') || ('A' ≤ c && c ≤ 'Z') || ('a' ≤ c && c ≤ 'z') || c == '-' || c == '_'

/-- Digits of base sixteen. -/
def isHexDigit (c : Char) : Bool :=
  ('0' ≤ c && c ≤ '9') || ('A' ≤ c && c ≤ 'F') || ('a' ≤ c && c ≤ 'f')

/-- The value of a run of digits of base sixteen. -/
def hexValue (ds : List Char) : Nat :=
  ds.foldl (fun n c =>
    16 * n +
      (if c ≤ '9' then c.toNat - '0'.toNat
        else if c ≤ 'F' then c.toNat - 'A'.toNat + 10
        else c.toNat - 'a'.toNat + 10)) 0

/-! ### Places -/

/-- A place in a text. -/
structure Cursor where
  rest : List Char
  offset : Nat
  line : Nat
  column : Nat

namespace Cursor

/-- The beginning of a text. -/
def start (s : List Char) : Cursor := ⟨s, 0, 0, 0⟩

/-- The place after the next character. A byte order mark takes no column, and what stands before a character
that is kept as two takes no place at all. -/
def next (c : Cursor) : Cursor :=
  match c.rest with
  | [] => c
  | x :: rest =>
    if isBreak x then ⟨rest, c.offset + 1, c.line + 1, 0⟩
    else if x = Text.mark then ⟨rest, c.offset, c.line, c.column⟩
    else ⟨rest, c.offset + 1, c.line, if x = '\uFEFF' then c.column else c.column + 1⟩

/-- The place `n` characters further on. -/
def skip (c : Cursor) : Nat → Cursor
  | 0 => c
  | n + 1 => c.next.skip n

/-- The place at which `rest` is left of the text. -/
def upTo (c : Cursor) (rest : List Char) : Cursor := c.skip (c.rest.length - rest.length)

end Cursor

end DocGraph.Yaml
