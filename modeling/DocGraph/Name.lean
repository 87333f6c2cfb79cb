/-!
# Names of classes

A full name is a row of segments with dots between them. It splits into a package and a short name:
the last segment, together with the segments directly before it that begin with a capital letter. The
first segment of a name with several always belongs to the package.
-/

namespace DocGraph.Name

/-- The segments of a name. -/
def segments (s : List Char) : List (List Char) := s.splitOn '.'

/-- Segments with dots between them. -/
def joinSegments (ss : List (List Char)) : List Char := [ '.' ].intercalate ss

/-- Whether a segment begins with an ASCII capital letter. -/
def isCapitalized (s : List Char) : Bool := s.head?.any fun c => 'A' ≤ c && c ≤ 'Z'

/-- How many segments the short name has, for a name given from its last segment to its first. -/
def shortCount : List (List Char) → Nat
  | [] => 0
  | _ :: before => (before.dropLast.takeWhile isCapitalized).length + 1

/-- The segments of the package and those of the short name. -/
def splitSegments (s : List Char) : List (List Char) × List (List Char) :=
  let reversed := (segments s).reverse
  ((reversed.drop (shortCount reversed)).reverse, (reversed.take (shortCount reversed)).reverse)

/-- The short name. -/
def short (name : String) : String := String.ofList (joinSegments (splitSegments name.toList).2)

/-- The package; empty if the name has no dot. -/
def package (name : String) : String := String.ofList (joinSegments (splitSegments name.toList).1)

/-- The packages around something, from the outermost to the innermost, for the segments of the
innermost one from the last to the first. A package with the empty name is none. -/
def packagesAround (reversed : List (List Char)) : List String :=
  match reversed with
  | [] => []
  | s :: before =>
    let name := String.ofList (joinSegments (s :: before).reverse)
    if name.isEmpty then []
    else
      packagesAround ((s :: before).drop (shortCount (s :: before))) ++ [name]
termination_by reversed.length
decreasing_by
  simp only [List.length_drop, List.length_cons, shortCount]
  omega

/-- The packages around a class, from the outermost to the innermost. -/
def packages (name : String) : List String := packagesAround (splitSegments name.toList).1.reverse

end DocGraph.Name
