/-!
# Lines

Two readings of line structure. A *line boundary* is any of the characters that end a line in some
convention; `splitLines` cuts a text at all of them, taking carriage return and line feed together
as one. A *newline* is the line feed alone; `unifyNewlines` turns the other two usual line endings
into it.
-/

namespace DocGraph.Text

/-- Characters that end a line: line feed, carriage return, vertical tab, form feed, the file, group
and record separators, next line, and the line and paragraph separators. -/
def isBoundary (c : Char) : Bool :=
  let n := c.toNat
  (0xA ≤ n && n ≤ 0xD) || (0x1C ≤ n && n ≤ 0x1E) || n == 0x85 || n == 0x2028 || n == 0x2029

/-- Put a character before the first line, which is a new one if there is none. -/
def consFirst (c : Char) : List (List Char) → List (List Char)
  | [] => [[c]]
  | l :: ls => (c :: l) :: ls

/-- The lines of a text, without their boundaries. A boundary at the very end starts no further
line. -/
def splitLines : List Char → List (List Char)
  | [] => []
  | '\r' :: '\n' :: s => [] :: splitLines s
  | c :: s => if isBoundary c then [] :: splitLines s else consFirst c (splitLines s)

/-- Lines put together with a newline between each two. -/
def joinLines : List (List Char) → List Char
  | [] => []
  | [l] => l
  | l :: ls => l ++ '\n' :: joinLines ls

/-- Write each line ending, whether carriage return, line feed or both, as one line feed. -/
def unifyNewlines : List Char → List Char
  | [] => []
  | '\r' :: '\n' :: s => '\n' :: unifyNewlines s
  | c :: s => (if c = '\r' then '\n' else c) :: unifyNewlines s

end DocGraph.Text
