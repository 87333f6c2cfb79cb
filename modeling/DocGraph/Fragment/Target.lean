import DocGraph.Fragment.Basic
import DocGraph.Text.Blank

/-!
# Targets as text

A target of documentation is written like a reference to a member, `Cls#kind-name`, and every part of
it may be left out. The kind is told from the name by being one of the known kinds.
-/

namespace DocGraph

/-- The characters before the first `c` and those after it. -/
def cutAt (c : Char) (s : List Char) : List Char × List Char :=
  (s.takeWhile (· ≠ c), (s.dropWhile (· ≠ c)).tail)

/-- A text that may be empty, as one that may be missing. -/
def nonempty? (s : List Char) : Option String := if s.isEmpty then none else some (String.ofList s)

namespace DocTarget

/-- The kind and the name that make up the part of a target behind its class. -/
def memberPart (s : List Char) : Option String × Option String :=
  let (kind, name) := cutAt '-' s
  if s.contains '-' && (MemberKind.ofName? (String.ofList kind)).isSome then
    (some (String.ofList kind), nonempty? name)
  else (none, nonempty? s)

/-- The target that a text stands for. -/
def ofText (s : String) : DocTarget :=
  let (cls, rest) := cutAt '#' (Text.trimChars s.toList)
  let (kind, member) := memberPart rest
  ⟨nonempty? cls, member, kind⟩

end DocTarget

end DocGraph
