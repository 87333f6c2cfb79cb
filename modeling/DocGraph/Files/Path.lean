/-!
# Paths

A path is a row of parts, which may begin at the root. Empty parts and parts that mean the place
itself are dropped in reading one; parts that go up stay. Paths are ordered part by part.
-/

namespace DocGraph

/-- A path to a file or directory. -/
structure Path where
  /-- What stands for the root; empty if the path begins at the working directory. -/
  root : String := ""
  parts : List String
  deriving DecidableEq, Repr

namespace Path

/-- Whether a path begins at the root. -/
def isAbsolute (p : Path) : Bool := !p.root.isEmpty

/-- How a text that begins with some slashes writes the root: with one slash, except that exactly two
of them are kept. -/
def rootOf (s : List Char) : String :=
  match (s.takeWhile (· = '/')).length with
  | 0 => ""
  | 2 => "//"
  | _ => "/"

/-- The path that a text names. -/
def ofText (s : String) : Path where
  root := rootOf s.toList
  parts := (s.toList.splitOn '/').map String.ofList |>.filter fun p => p ≠ "" ∧ p ≠ "."

/-- The text of a path. -/
def text (p : Path) : String :=
  if p.isAbsolute then p.root ++ "/".intercalate p.parts
  else if p.parts.isEmpty then "."
  else "/".intercalate p.parts

/-- The most bytes that the text of a path takes. -/
def limit : Nat := 4095

/-- The path of something inside a directory. -/
def inside (p : Path) (parts : List String) : Path := { p with parts := p.parts ++ parts }

/-- The directory that holds what a path names. -/
def parent (p : Path) : Path := { p with parts := p.parts.dropLast }

/-- The ending of a file name from its last dot on. A dot at the beginning or the end of the name
begins none. -/
def suffix (name : String) : String :=
  let s := name.toList
  let stem := (s.reverse.dropWhile (· ≠ '.')).drop 1
  let ending := (s.reverse.takeWhile (· ≠ '.')).reverse
  if stem.isEmpty || ending.isEmpty then "" else String.ofList ('.' :: ending)

end Path

end DocGraph
