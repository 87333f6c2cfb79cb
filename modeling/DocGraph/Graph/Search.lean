import DocGraph.Graph.Basic

/-!
# Ancestors and search order

The ancestors of a class are met by following parents until there is none, or one was met before. A
member is looked up first in the ancestors, then in the mixins of the class and of each ancestor, each
mixin together with its own ancestors.
-/

namespace DocGraph.ClassGraph

/-- How many names of classes are not in a list. -/
def unmet (g : ClassGraph) (seen : List String) : Nat :=
  (g.names.filter fun n => n ∉ seen).length

theorem unmet_cons_lt {g : ClassGraph} {seen : List String} {n : String} (hn : n ∈ g.names)
    (hs : n ∉ seen) : g.unmet (n :: seen) < g.unmet seen := by
  have h : (g.names.filter fun m => m ∉ n :: seen) =
      (g.names.filter fun m => m ∉ seen).filter fun m => m ≠ n := by
    rw [List.filter_filter]
    exact List.filter_congr fun m _ => by simp
  rw [unmet, unmet, h]
  apply List.length_filter_lt_length_iff_exists.2
  exact ⟨n, by simp [hn, hs], by simp⟩

/-! ### Ancestors -/

/-- The ancestors of a class that are not yet in a list, nearest first. A parent outside the graph is
the last one. -/
def ancestorsFrom (g : ClassGraph) (seen : List String) (n : String) : List String :=
  match g.parentOf n with
  | none => []
  | some p =>
    if _hs : p ∈ seen then []
    else if _hn : p ∈ g.names then p :: ancestorsFrom g (p :: seen) p
    else [p]
termination_by g.unmet seen
decreasing_by exact unmet_cons_lt _hn _hs

/-- The parent of a class, the parent of that, and so on. -/
def ancestorNames (g : ClassGraph) (n : String) : List String := g.ancestorsFrom [n] n

/-- The ancestors of a class that are in the graph. -/
def ancestors (g : ClassGraph) (n : String) : List DocClass := (g.ancestorNames n).filterMap g.find?

/-! ### Search order -/

/-- The names to look up after the ancestors of a class: those of the mixins along the chain from the
class to its last ancestor, each followed by its own ancestors. -/
def mixinCandidates (g : ClassGraph) (n : String) : List String :=
  (n :: g.ancestorNames n).flatMap fun owner =>
    (g.mixinsOf owner).flatMap fun m => m :: g.ancestorNames m

/-- The classes of a list at their first occurrence, without those whose names have been seen. -/
def firstOccurrences (seen : List String) : List DocClass → List DocClass
  | [] => []
  | c :: cs =>
    if c.name ∈ seen then firstOccurrences seen cs
    else c :: firstOccurrences (c.name :: seen) cs

/-- The classes in which to look for documentation that a class lacks, in order. -/
def searchOrder (g : ClassGraph) (n : String) : List DocClass :=
  firstOccurrences [n] ((g.ancestorNames n ++ g.mixinCandidates n).filterMap g.find?)

end DocGraph.ClassGraph
