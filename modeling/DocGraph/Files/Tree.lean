import DocGraph.Files.Source

/-!
# File trees

A tree of directories and files, as far as a run looks at it. A path through it is followed part by part
and ends at the first obstacle.
-/

namespace DocGraph

/-- A file, or a directory with its entries by name. -/
inductive FileTree
  | file (source : Source)
  | directory (entries : List (String × FileTree))

/-- Why a path leads nowhere. -/
inductive Obstacle
  /-- A part is not there. -/
  | missing
  /-- The path goes on behind a file. -/
  | file
  /-- A name, or the whole path, is longer than names and paths can be. -/
  | length
  /-- The path has a null character in it. -/
  | null
  deriving DecidableEq, Repr

/-- The most bytes that a name of a file takes. -/
def nameLimit : Nat := 255

namespace FileTree

/-- Whether there are entries. -/
def isDirectory : FileTree → Bool
  | .file _ => false
  | .directory _ => true

/-- The entry of a directory with the given name. -/
def child? : FileTree → String → Option FileTree
  | .file _, _ => none
  | .directory es, name => es.lookup name

/-- What some parts lead to from a place, whose enclosing directories are given, nearest first. Only
from a directory can one go on, down or up. Above the root is the root. -/
def follow (above : List FileTree) (t : FileTree) : List String → Except Obstacle FileTree
  | [] => .ok t
  | p :: ps =>
    if !t.isDirectory then .error .file
    else if p = ".." then
      match above with
      | [] => follow [] t ps
      | u :: above => follow above u ps
    else if nameLimit < Text.byteSize p then .error .length
    else match t.child? p with
      | some t' => follow (t :: above) t' ps
      | none => .error .missing

/-! ### Contents of directories -/

mutual

/-- The paths of everything below a place, relative to it. -/
def descendants : FileTree → List (List String)
  | .file _ => []
  | .directory es => entryDescendants es

/-- The paths of some entries and of everything below them. -/
def entryDescendants : List (String × FileTree) → List (List String)
  | [] => []
  | (name, t) :: es => [name] :: t.descendants.map (name :: ·) ++ entryDescendants es

end

/-! ### Changes -/

/-- Put something at an entry of a directory. -/
def setEntry (name : String) (t : FileTree) : List (String × FileTree) → List (String × FileTree)
  | [] => [(name, t)]
  | e :: es => if e.1 = name then (name, t) :: es else e :: setEntry name t es

/-- The entries of a directory. -/
def entries : FileTree → List (String × FileTree)
  | .file _ => []
  | .directory es => es

/-- Put something at a place below a directory, making directories on the way. -/
def put (t : FileTree) (parts : List String) (new : FileTree) : FileTree :=
  match parts with
  | [] => new
  | p :: ps => .directory (setEntry p (put ((t.child? p).getD (.directory [])) ps new) t.entries)

end FileTree

end DocGraph
