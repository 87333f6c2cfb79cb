import DocGraph.Graph.Search

/-!
# Cycles

Parents that lead back to a class, and mixins that lead back to one, are cut: of each cycle that is
met the edge that closes it. Classes are visited in the order of their names, so what is cut does not
depend on the order in which they were given.
-/

namespace DocGraph.ClassGraph

/-- The edges that a cycle is made of. -/
inductive EdgeKind
  | parent
  | mixin
  deriving DecidableEq, Repr

/-- The word for a kind of edges. -/
def EdgeKind.name : EdgeKind → String
  | .parent => "extends"
  | .mixin => "mixins"

/-- The report of a cycle whose edge from `n` is cut. The cycle begins and ends with the same class. -/
def cycleDiagnostic (g : ClassGraph) (n : String) (kind : EdgeKind) (cycle : List String) :
    Diagnostic where
  kind := .structuralCycle
  message :=
    "Circular " ++ kind.name ++ " dependency: " ++ " -> ".intercalate cycle ++ "; edge from " ++ n ++
      " removed"
  cls := some n
  file := ((g.find? n).map DocClass.file).getD ""
  line := ((g.find? n).map DocClass.line).getD 0

/-- The part of a list from the first occurrence of `n` on. -/
def fromFirst (n : String) (path : List String) : List String := path.dropWhile (· ≠ n)

/-- A graph that is being freed of cycles, and what was reported. -/
structure Cutting where
  graph : ClassGraph
  /-- The classes from which no cycle can be reached any more. -/
  finished : List String := []
  journal : Journal := []

/-! ### Parents -/

/-- Follow parents from `current` on, after the classes of `path`. The classes met are given, and the
class that is met again, if there is one. The walk stops at a finished class. -/
def parentPath (g : ClassGraph) (finished path : List String) (current : String) :
    List String × Option String :=
  if current ∈ finished then (path, none)
  else if _hs : current ∈ path then (path, some current)
  else if _hn : current ∈ g.names then
    match g.parentOf current with
    | none => (path ++ [current], none)
    | some p => parentPath g finished (path ++ [current]) p
  else (path ++ [current], none)
termination_by g.unmet path
decreasing_by
  have : g.unmet (path ++ [current]) = g.unmet (current :: path) := by
    simp [unmet, or_comm]
  rw [this]
  exact unmet_cons_lt _hn _hs

/-- Follow the parents of one class and cut the cycle that they run into, if there is a new one. -/
def cutParentCycleFrom (s : Cutting) (n : String) : Cutting :=
  let (path, met) := s.graph.parentPath s.finished [] n
  let finished := path ++ s.finished
  match met, path.getLast? with
  | some again, some closing =>
    let cycle := fromFirst again path ++ [again]
    { graph := s.graph.cutParent closing
      finished
      journal := s.journal ++ [.warning (s.graph.cycleDiagnostic closing .parent cycle)] }
  | _, _ => { s with finished }

/-- Cut all cycles of parents. -/
def cutParentCycles (g : ClassGraph) : ClassGraph × Journal :=
  let s := g.sortedNames.foldl cutParentCycleFrom { graph := g }
  (s.graph, s.journal)

/-! ### Mixins -/

mutual

/-- Visit the mixins of a class, and theirs. The classes on the way to this one are in `stack`, the
nearest first. -/
def visitMixins (names stack : List String) (n : String) (s : Cutting) : Cutting :=
  if _h : n ∈ names ∧ n ∉ stack then
    let s := visitEach names (n :: stack) n (s.graph.mixinsOf n) s
    { s with finished := n :: s.finished }
  else s
termination_by ((names.filter fun m => m ∉ stack).length, 0)
decreasing_by
  have h : (names.filter fun m => m ∉ n :: stack) =
      (names.filter fun m => m ∉ stack).filter fun m => m ≠ n := by
    rw [List.filter_filter]
    exact List.filter_congr fun m _ => by simp
  apply Prod.Lex.left
  rw [h]
  apply List.length_filter_lt_length_iff_exists.2
  exact ⟨n, by simp [_h.1, _h.2], by simp⟩

/-- Visit some of the mixins of a class: cut those that lead back, and pass over those that are
finished or outside the graph. -/
def visitEach (names stack : List String) (n : String) (mixins : List String) (s : Cutting) :
    Cutting :=
  match mixins with
  | [] => s
  | m :: ms =>
    let s :=
      if m ∉ names then s
      else if m ∈ stack then
        let cycle := fromFirst m stack.reverse ++ [m]
        { s with
          graph := s.graph.cutMixin n m
          journal := s.journal ++ [.warning (s.graph.cycleDiagnostic n .mixin cycle)] }
      else if m ∈ s.finished then s
      else visitMixins names stack m s
    visitEach names stack n ms s
termination_by ((names.filter fun m => m ∉ stack).length, mixins.length + 1)

end

/-- Cut all cycles of mixins. -/
def cutMixinCycles (g : ClassGraph) : ClassGraph × Journal :=
  let s := g.sortedNames.foldl
    (fun s n => if n ∈ s.finished then s else visitMixins g.names [] n s) { graph := g }
  (s.graph, s.journal)

/-- Cut all cycles of parents, then all cycles of mixins. -/
def cutCycles (g : ClassGraph) : ClassGraph × Journal :=
  let (g, parents) := g.cutParentCycles
  let (g, mixins) := g.cutMixinCycles
  (g, parents ++ mixins)

end DocGraph.ClassGraph
