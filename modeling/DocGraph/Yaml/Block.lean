import DocGraph.Fault
import DocGraph.Yaml.Cursor

/-!
# Block scalars

The header of a block scalar tells how its last line breaks are treated and may give its
indentation; without that, the first lines decide. Literal scalars keep all line breaks; folded ones
turn a single break between two lines of text into a space.
-/

namespace DocGraph.Yaml

/-- What becomes of the line breaks at the end of a block scalar. -/
inductive Chomping
  | strip
  | clip
  | keep
  deriving DecidableEq, Repr

/-- The chomping that a sign stands for. -/
def chompingFor? : Char → Option Chomping
  | '+' => some .keep
  | '-' => some .strip
  | _ => none

/-- The depth that a digit stands for; zero is none. -/
def depthFor (c : Char) : Except Fault (Option Nat) :=
  if '0' ≤ c ∧ c ≤ '9' then
    if c = '0' then .error .malformed else .ok (some (c.toNat - '0'.toNat))
  else .ok none

/-- Chomping and depth in either order, and what is left after them. -/
def blockIndicators (s : List Char) : Except Fault (Chomping × Option Nat × List Char) :=
  match s with
  | [] => .ok (.clip, none, [])
  | c :: s =>
    match chompingFor? c with
    | some chomping =>
      match s with
      | [] => .ok (chomping, none, [])
      | d :: rest => do
        match ← depthFor d with
        | some depth => return (chomping, some depth, rest)
        | none => return (chomping, none, d :: rest)
    | none => do
      match ← depthFor c with
      | none => return (.clip, none, c :: s)
      | some depth =>
        match s with
        | [] => return (.clip, some depth, [])
        | d :: rest =>
          match chompingFor? d with
          | some chomping => return (chomping, some depth, rest)
          | none => return (.clip, some depth, d :: rest)

/-- What is left after the end of a line that may hold spaces and a comment, but nothing else. -/
def ignoredLine (s : List Char) : Except Fault (List Char) :=
  let s := s.dropWhile (· = ' ')
  let s := if s.head? = some '#' then s.dropWhile (!isBreak ·) else s
  if endsLine s then .ok s.tail else .error .malformed

/-- The header of a block scalar, and what is left after its line. -/
def blockHeader (s : List Char) : Except Fault (Chomping × Option Nat × List Char) := do
  let (chomping, depth, s) ← blockIndicators s
  if endsWord s then return (chomping, depth, ← ignoredLine s) else .error .malformed

/-! ### Indentation -/

/-- Line breaks and what is left after them, with the column reached there. -/
structure BlockGap where
  breaks : List Char
  rest : List Char
  column : Nat

/-- The blank lines at the beginning, and the deepest column met in them and before the first
character. -/
def leadingLines (column deepest : Nat) : List Char → BlockGap × Nat
  | [] => (⟨[], [], column⟩, deepest)
  | c :: s =>
    if c = ' ' then leadingLines (column + 1) (max deepest (column + 1)) s
    else if isBreak c then
      let (gap, deepest) := leadingLines 0 deepest s
      ({ gap with breaks := c :: gap.breaks }, deepest)
    else (⟨[], c :: s, column⟩, deepest)

/-- Line breaks and the spaces up to the given indentation. -/
def blockGap (indent column : Nat) : List Char → BlockGap
  | [] => ⟨[], [], column⟩
  | c :: s =>
    if c = ' ' ∧ column < indent then blockGap indent (column + 1) s
    else if isBreak c then
      let gap := blockGap indent 0 s
      { gap with breaks := c :: gap.breaks }
    else ⟨[], c :: s, column⟩

/-- Whether a line of text of the scalar begins after a gap. -/
def BlockGap.holdsLine (g : BlockGap) (indent : Nat) : Bool :=
  g.column == indent && !g.rest.isEmpty

/-! ### Lines -/

/-- The end of the text: the last line break and the breaks after it. -/
def chomp (chomping : Chomping) (last breaks : List Char) : List Char :=
  match chomping with
  | .strip => []
  | .clip => last
  | .keep => last ++ breaks

/-- Whether a line begins with a space or a tab. -/
def isMoreIndented (s : List Char) : Bool := s.head?.any isSpaceOrTab

/-- What stands for a line break before the given breaks and the next line. -/
def lineJoint (folded : Bool) (line last : List Char) (next : BlockGap) : List Char :=
  if folded && last == ['\n'] && !isMoreIndented line && !isMoreIndented next.rest then
    if next.breaks.isEmpty then [' '] else []
  else last

/-- The text of the lines from here on, and what is left after them. Each round takes a line. -/
def blockLines (folded : Bool) (chomping : Chomping) (indent : Nat) :
    Nat → BlockGap → List Char × List Char
  | 0, gap => ([], gap.rest)
  | rounds + 1, gap =>
    if gap.holdsLine indent then
      let line := gap.rest.takeWhile (!isBreak ·)
      let after := gap.rest.dropWhile (!isBreak ·)
      let last := after.take 1
      let next := blockGap indent (if last.isEmpty then indent + line.length else 0) after.tail
      if next.holdsLine indent then
        let (text, rest) := blockLines folded chomping indent rounds next
        (gap.breaks ++ line ++ lineJoint folded gap.rest last next ++ text, rest)
      else (gap.breaks ++ line ++ chomp chomping last next.breaks, next.rest)
    else (chomp chomping [] gap.breaks, gap.rest)

/-- A block scalar after its indicator, inside a block of the given least indentation. -/
def blockScalar (folded : Bool) (least : Nat) (s : List Char) :
    Except Fault (List Char × List Char) := do
  let (chomping, depth, s) ← blockHeader s
  let (indent, gap) := match depth with
    | some depth => (least + depth - 1, blockGap (least + depth - 1) 0 s)
    | none =>
      let (gap, deepest) := leadingLines 0 0 s
      (max least deepest, gap)
  return blockLines folded chomping indent (s.length + 1) gap

end DocGraph.Yaml
