import DocGraph.Graph.Search
import DocGraph.Proofs.Graph.MixinCut
import DocGraph.Proofs.Graph.ParentCut

/-!
# Ancestors

The walk over the ancestors of a class stops before a class that it has met. The classes met before it
began matter only if it comes upon one of them, so where no parents lead back to a class, its ancestors
are its parent followed by those of the parent. Where they do lead back, the walk still comes upon every
class that can be reached by parents, no further along than it has to be.

Once the cycles of a graph are cut, no parents lead back to a class.
-/

namespace DocGraph.ClassGraph

variable {g : ClassGraph} {n p x : String} {seen seen' : List String} {i : Nat}

/-! ### Walks -/

lemma ancestorsFrom_of_none (h : g.parentOf n = none) : g.ancestorsFrom seen n = [] := by
  rw [ancestorsFrom, h]

lemma ancestorsFrom_of_mem (h : g.parentOf n = some p) (hs : p ∈ seen) :
    g.ancestorsFrom seen n = [] := by
  rw [ancestorsFrom, h]
  simp [hs]

lemma ancestorsFrom_of_class (h : g.parentOf n = some p) (hs : p ∉ seen) (hp : p ∈ g.names) :
    g.ancestorsFrom seen n = p :: g.ancestorsFrom (p :: seen) p := by
  rw [ancestorsFrom, h]
  simp [hs, hp]

lemma ancestorsFrom_of_stub (h : g.parentOf n = some p) (hs : p ∉ seen) (hp : p ∉ g.names) :
    g.ancestorsFrom seen n = [p] := by
  rw [ancestorsFrom, h]
  simp [hs, hp]

/-- No class is met twice. -/
lemma not_mem_seen_of_mem_ancestorsFrom (h : x ∈ g.ancestorsFrom seen n) : x ∉ seen := by
  fun_induction g.ancestorsFrom seen n with
  | case1 => simp at h
  | case2 => simp at h
  | case3 seen n p hp hs hn ih =>
    rcases List.mem_cons.1 h with rfl | h
    · exact hs
    · exact fun hx => ih h (List.mem_cons_of_mem p hx)
  | case4 seen n p hp hs hn => rwa [List.mem_singleton.1 h]

/-- Ancestors are reached by parents. -/
lemma transGen_of_mem_ancestorsFrom (h : x ∈ g.ancestorsFrom seen n) :
    Relation.TransGen g.ParentEdge n x := by
  fun_induction g.ancestorsFrom seen n with
  | case1 => simp at h
  | case2 => simp at h
  | case3 seen n p hp hs hn ih =>
    rcases List.mem_cons.1 h with rfl | h
    · exact .single hp
    · exact .head hp (ih h)
  | case4 seen n p hp hs hn => exact .single (List.mem_singleton.1 h ▸ hp)

/-- Classes that are not come upon make no difference. -/
lemma ancestorsFrom_congr (h : ∀ x, Relation.TransGen g.ParentEdge n x → (x ∈ seen ↔ x ∈ seen')) :
    g.ancestorsFrom seen n = g.ancestorsFrom seen' n := by
  fun_induction g.ancestorsFrom seen n generalizing seen' with
  | case1 seen n hp => rw [ancestorsFrom_of_none hp]
  | case2 seen n p hp hs => rw [ancestorsFrom_of_mem hp ((h p (.single hp)).1 hs)]
  | case3 seen n p hp hs hn ih =>
    rw [ancestorsFrom_of_class hp (mt (h p (.single hp)).2 hs) hn]
    congr 1
    apply ih
    intro x hx
    rw [List.mem_cons, List.mem_cons, h x (.head hp hx)]
  | case4 seen n p hp hs hn => rw [ancestorsFrom_of_stub hp (mt (h p (.single hp)).2 hs) hn]

/-! ### Distances -/

/-- What is met after some steps, each from a class to its parent. -/
def parentAt (g : ClassGraph) : Nat → String → Option String
  | 0, n => some n
  | i + 1, n => (g.parentOf n).bind (g.parentAt i)

lemma parentAt_succ (g : ClassGraph) (i : Nat) (n : String) :
    g.parentAt (i + 1) n = (g.parentAt i n).bind g.parentOf := by
  induction i generalizing n with
  | zero => cases h : g.parentOf n <;> simp [parentAt, h]
  | succ i ih =>
    rw [parentAt, parentAt, Option.bind_assoc]
    congr 1
    funext p
    exact ih p

lemma exists_parentAt_iff : (∃ i, g.parentAt i n = some x) ↔ g.ParentReach n x := by
  constructor
  · rintro ⟨i, hi⟩
    induction i generalizing n with
    | zero => exact Option.some.inj hi ▸ .refl
    | succ i ih =>
      obtain ⟨p, hp, hi⟩ := Option.bind_eq_some_iff.1 hi
      exact .head hp (ih hi)
  · intro h
    induction h using Relation.ReflTransGen.head_induction_on with
    | refl => exact ⟨0, rfl⟩
    | head hp _ ih =>
      obtain ⟨i, hi⟩ := ih
      exact ⟨i + 1, Option.bind_eq_some_iff.2 ⟨_, hp, hi⟩⟩

/-- A name and its ancestors. -/
def chain (g : ClassGraph) (n : String) : List String := n :: g.ancestorNames n

lemma parentAt_of_getElem?_ancestorsFrom
    (h : (n :: g.ancestorsFrom seen n)[i]? = some x) : g.parentAt i n = some x := by
  cases i with
  | zero => simpa [parentAt] using h
  | succ i =>
    rw [List.getElem?_cons_succ] at h
    fun_induction g.ancestorsFrom seen n generalizing i with
    | case1 => simp at h
    | case2 => simp at h
    | case3 seen n p hp hs hn ih =>
      rw [parentAt, hp, Option.bind_some]
      cases i with
      | zero => simpa [parentAt] using h
      | succ i => exact ih i h
    | case4 seen n p hp hs hn =>
      rw [parentAt, hp, Option.bind_some]
      cases i with
      | zero => simpa [parentAt] using h
      | succ i => simp at h

/-- The walk over ancestors stops only where there is no parent or where it comes upon a class that it has
met. -/
lemma exists_getElem?_of_parentOf {y : String}
    (hy : (n :: g.ancestorsFrom seen n)[i]? = some y) (hp : g.parentOf y = some p) :
    p ∈ seen ∨ ∃ j ≤ i + 1, (n :: g.ancestorsFrom seen n)[j]? = some p := by
  fun_induction g.ancestorsFrom seen n generalizing i with
  | case1 seen n hnone =>
    cases i with
    | zero =>
      obtain rfl : n = y := by simpa using hy
      simp [hnone] at hp
    | succ i => simp at hy
  | case2 seen n q hq hs =>
    cases i with
    | zero =>
      obtain rfl : n = y := by simpa using hy
      obtain rfl := Option.some.inj (hq.symm.trans hp)
      exact .inl hs
    | succ i => simp at hy
  | case3 seen n q hq hs hn ih =>
    cases i with
    | zero =>
      obtain rfl : n = y := by simpa using hy
      obtain rfl := Option.some.inj (hq.symm.trans hp)
      exact .inr ⟨1, le_rfl, rfl⟩
    | succ i =>
      rcases ih hy with hmem | ⟨j, hj, hget⟩
      · rcases List.mem_cons.1 hmem with rfl | hmem
        · exact .inr ⟨1, by omega, rfl⟩
        · exact .inl hmem
      · exact .inr ⟨j + 1, by omega, hget⟩
  | case4 seen n q hq hs hn =>
    cases i with
    | zero =>
      obtain rfl : n = y := by simpa using hy
      obtain rfl := Option.some.inj (hq.symm.trans hp)
      exact .inr ⟨1, le_rfl, rfl⟩
    | succ i =>
      -- a name outside the graph has no parent
      cases i with
      | zero =>
        obtain rfl : q = y := by simpa using hy
        simp [parentOf_eq_none_of_not_mem (canonical_of_parentOf hq) hn] at hp
      | succ i => simp at hy

/-- A name and its ancestors, each with its distance. -/
def ascents (g : ClassGraph) (n : String) : List (String × Nat) := (g.chain n).zipIdx

@[simp] lemma map_fst_ascents (g : ClassGraph) (n : String) :
    (g.ascents n).map Prod.fst = g.chain n :=
  List.zipIdx_map_fst ..

lemma pairwise_ascents (g : ClassGraph) (n : String) :
    (g.ascents n).Pairwise fun a b => a.2 < b.2 := by
  rw [← List.pairwise_map (f := Prod.snd), ascents, List.zipIdx_map_snd]
  exact List.pairwise_lt_range' 1

lemma parentAt_of_mem_ascents (h : (x, i) ∈ g.ascents n) : g.parentAt i n = some x :=
  parentAt_of_getElem?_ancestorsFrom (List.mem_zipIdx_iff_getElem?.1 h)

/-- What is met after some steps is an ancestor at most as far away. -/
lemma exists_mem_ascents (h : g.parentAt i n = some x) : ∃ j ≤ i, (x, j) ∈ g.ascents n := by
  induction i generalizing x with
  | zero =>
    obtain rfl := Option.some.inj h
    exact ⟨0, le_rfl, by simp [ascents, chain]⟩
  | succ i ih =>
    rw [parentAt_succ] at h
    obtain ⟨y, hy, hx⟩ := Option.bind_eq_some_iff.1 h
    obtain ⟨j, hj, hmem⟩ := ih hy
    rcases exists_getElem?_of_parentOf (List.mem_zipIdx_iff_getElem?.1 hmem) hx with hn | ⟨k, hk, hget⟩
    · obtain rfl := List.mem_singleton.1 hn
      exact ⟨0, by omega, by simp [ascents, chain]⟩
    · exact ⟨k, by omega, List.mem_zipIdx_iff_getElem?.2 hget⟩

/-! ### Chains without cycles -/

/-- A class comes before the ancestors of its children, unless parents lead back to one of them. -/
lemma ancestorNames_of_class (h : ¬Relation.TransGen g.ParentEdge n n) (hp : g.parentOf n = some p)
    (hn : p ∈ g.names) : g.ancestorNames n = p :: g.ancestorNames p := by
  have hne : p ∉ [n] := by
    intro hmem
    rw [List.mem_singleton.1 hmem] at hp
    exact h (.single hp)
  rw [ancestorNames, ancestorsFrom_of_class hp hne hn]
  congr 1
  apply ancestorsFrom_congr
  intro x hx
  have hxn : x ≠ n := by
    rintro rfl
    exact h (.head hp hx)
  simp [hxn]

lemma ancestorNames_of_stub (hn : n ∈ g.names) (hp : g.parentOf n = some p) (hstub : p ∉ g.names) :
    g.ancestorNames n = [p] := by
  apply ancestorsFrom_of_stub hp _ hstub
  intro hmem
  exact hstub (List.mem_singleton.1 hmem ▸ hn)

/-! ### After the cutting -/

/-- Cutting mixins does not bring cycles of parents back. -/
lemma not_transGen_parentEdge_cutCycles (g : ClassGraph) (n : String) :
    ¬Relation.TransGen g.cutCycles.1.ParentEdge n n := by
  obtain ⟨s, cuts, hs, hcut⟩ := exists_isCutting g
  obtain ⟨s', cuts', hs', hpaused, -⟩ := exists_isPaused s.graph
  have hgraph : g.cutCycles.1 = s'.graph := by simp [cutCycles, hs, hs']
  have hedges : s'.graph.ParentEdge = s.graph.ParentEdge := by
    rw [hpaused.graph]
    rfl
  rw [hgraph, hedges]
  exact hcut.acyclic n

end DocGraph.ClassGraph
