import DocGraph.Proofs.Graph.Edge
import Mathlib.Data.List.Chain

/-!
# Searching for cycles of mixins

The mixins of each class are looked at once, while the classes that led to it are on a stack. An edge is
*kept* when it has been looked at and not cut. The stack is a path of kept edges, so each edge that leads
back into the stack closes a cycle of kept edges when it is cut, and that cycle is there for good: only
edges that are still to be looked at can be cut later.

A class is finished when all its mixins are. The finished classes, the last one first, are therefore in
an order in which kept edges only lead forwards.
-/

namespace DocGraph.ClassGraph

variable {g : ClassGraph} {n m x y : String} {stack ms : List String} {s s' : Cutting}
  {pend : String → String → Prop}

/-! ### Cuts -/

/-- An edge to a mixin that is cut, and the classes on the way from the mixin to the class that has
it. -/
structure MixinCut (g : ClassGraph) where
  cls : String
  mixin : String
  way : List String
  edge : g.MixinEdge cls mixin
  head : way.head? = some mixin
  last : way.getLast? = some cls

/-- The edge that is cut. -/
def MixinCut.pair (k : MixinCut g) : String × String := (k.cls, k.mixin)

/-- The report of a cycle that is cut. It lists the classes from the mixin back to the mixin. -/
def MixinCut.report (k : MixinCut g) : Event :=
  .warning (g.cycleDiagnostic k.cls .mixin (k.way ++ [k.mixin]))

/-! ### Finished classes -/

/-- Every edge from a class in the list leads to a class further on in it. -/
def IsForward (r : String → String → Prop) : List String → Prop
  | [] => True
  | n :: ns => (∀ m, r n m → m ∈ ns) ∧ IsForward r ns

lemma IsForward.mono {r r' : String → String → Prop} {ns : List String} (h : IsForward r ns)
    (hr : ∀ x y, r' x y → r x y) : IsForward r' ns := by
  induction ns with
  | nil => trivial
  | cons n ns ih => exact ⟨fun m hm => h.1 m (hr n m hm), ih h.2⟩

lemma IsForward.mem {r : String → String → Prop} {ns : List String} (h : IsForward r ns)
    (hx : x ∈ ns) (hxy : Relation.TransGen r x y) : y ∈ ns := by
  have hstep : ∀ ns, IsForward r ns → ∀ a b, a ∈ ns → r a b → b ∈ ns := by
    intro ns h a b ha hab
    induction ns with
    | nil => simp at ha
    | cons n ns ih =>
      rcases List.mem_cons.1 ha with rfl | ha
      · exact List.mem_cons_of_mem _ (h.1 b hab)
      · exact List.mem_cons_of_mem _ (ih h.2 ha)
  induction hxy with
  | single hxy => exact hstep ns h x _ hx hxy
  | tail _ hyz ih => exact hstep ns h _ _ ih hyz

/-- Edges that only lead forwards make no cycle. -/
lemma IsForward.acyclic {r : String → String → Prop} {ns : List String} (h : IsForward r ns)
    (hnodup : ns.Nodup) (hx : x ∈ ns) : ¬Relation.TransGen r x x := by
  intro hxx
  induction ns with
  | nil => simp at hx
  | cons n ns ih =>
    obtain ⟨hn, hnodup⟩ := List.nodup_cons.1 hnodup
    rcases List.mem_cons.1 hx with rfl | hx
    · obtain ⟨y, hxy, hyx⟩ := Relation.TransGen.head'_iff.1 hxx
      rcases Relation.reflTransGen_iff_eq_or_transGen.1 hyx with rfl | hyx
      · exact hn (h.1 _ hxy)
      · exact hn (h.2.mem (h.1 y hxy) hyx)
    · exact ih h.2 hnodup hx

/-! ### The invariant -/

/-- An edge that has been looked at and is not cut. The edges `pend` of classes on the stack are still to
be looked at. -/
structure KeptEdge (g : ClassGraph) (pend : String → String → Prop) (stack : List String)
    (s : Cutting) (x y : String) : Prop where
  left : x ∈ g.names
  right : y ∈ g.names
  mem : y ∈ s.graph.mixinsOf x
  looked : ¬pend x y
  owner : x ∈ s.finished ∨ x ∈ stack

/-- The search has the classes `stack` on its way, the nearest first, and has made the cuts `cuts`. -/
structure IsSearch (g : ClassGraph) (pend : String → String → Prop) (stack : List String)
    (s : Cutting) (cuts : List (MixinCut g)) : Prop where
  graph : s.graph = g.withoutMixins (cuts.map MixinCut.pair)
  journal : s.journal = cuts.map MixinCut.report
  nodup : (cuts.map MixinCut.pair).Nodup
  way : ∀ k ∈ cuts, List.IsChain (g.KeptEdge pend stack s) k.way
  path : List.IsChain (fun y x => g.KeptEdge pend stack s x y) stack
  names : ∀ x ∈ stack, x ∈ g.names
  unfinished : ∀ x ∈ stack, x ∉ s.finished
  once : s.finished.Nodup
  known : ∀ x ∈ s.finished, x ∈ g.names
  forward : IsForward s.graph.MixinEdge s.finished

/-- What is left of the mixins of the classes of a stack when something else has been visited: all. -/
structure Leaves (stack : List String) (s s' : Cutting) : Prop where
  mixins : ∀ x ∈ stack, s'.graph.mixinsOf x = s.graph.mixinsOf x
  finished : ∀ x ∈ s.finished, x ∈ s'.finished

lemma Leaves.refl (stack : List String) (s : Cutting) : Leaves stack s s :=
  ⟨fun _ _ => rfl, fun _ hx => hx⟩

lemma Leaves.trans {s'' : Cutting} (h : Leaves stack s s') (h' : Leaves stack s' s'') :
    Leaves stack s s'' :=
  ⟨fun x hx => (h'.mixins x hx).trans (h.mixins x hx),
    fun x hx => h'.finished x (h.finished x hx)⟩

lemma Leaves.tail (h : Leaves (n :: stack) s s') : Leaves stack s s' :=
  ⟨fun x hx => h.mixins x (List.mem_cons_of_mem n hx), h.finished⟩

/-- The search is at the class `n`, whose mixins `ms` are still to be looked at. -/
structure IsLoop (g : ClassGraph) (pend : String → String → Prop) (stack : List String)
    (n : String) (ms : List String) (s : Cutting) (cuts : List (MixinCut g)) : Prop where
  search : g.IsSearch (fun x y => pend x y ∨ x = n ∧ y ∈ ms) (n :: stack) s cuts
  below : ∀ x y, pend x y → x ∈ stack
  fresh : n ∉ stack
  nodup : ms.Nodup
  listed : ∀ m ∈ ms, m ∈ s.graph.mixinsOf n
  looked : ∀ m ∈ s.graph.mixinsOf n, m ∈ g.names → m ∈ s.finished ∨ m ∈ ms

end DocGraph.ClassGraph
