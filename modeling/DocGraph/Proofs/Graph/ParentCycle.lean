import DocGraph.Graph.Cycles
import DocGraph.Proofs.Graph.Edge
import Mathlib.Data.List.Chain
import Mathlib.Data.String.Basic
import Mathlib.Order.Bounds.Basic

/-!
# Cycles of parents

A class has at most one parent, so every chain of parents runs into at most one cycle and does not leave
it again. A cycle is cut when the first chain is followed that runs into it, and the edge that is cut is
the one back to the class by which that chain has entered.

The invariant of the cutting is that the classes which are finished are closed under parents. The chain
of the next class therefore stays outside them as long as it is new, and a cycle lies either among the
finished classes as a whole or outside them as a whole.
-/

namespace DocGraph.ClassGraph

variable {g : ClassGraph} {a e m n x y : String} {c : List String}

/-! ### Cycles -/

/-- The classes of a cycle in the order in which parents lead from `e` back to `e`. -/
structure IsParentCycle (g : ClassGraph) (e : String) (c : List String) : Prop where
  head : c.head? = some e
  nodup : c.Nodup
  chain : List.IsChain g.ParentEdge (c ++ [e])

namespace IsParentCycle

lemma entry_mem (h : g.IsParentCycle e c) : e ∈ c := List.mem_of_head? h.head

/-- Every class of a cycle has its parent in it. -/
lemma exists_edge (h : g.IsParentCycle e c) (hx : x ∈ c) : ∃ y ∈ c, g.ParentEdge x y := by
  obtain ⟨s, t, rfl⟩ := List.append_of_mem hx
  have hc := h.chain
  rw [List.append_assoc] at hc
  cases t with
  | nil => exact ⟨e, h.entry_mem, by simpa using hc.right_of_append⟩
  | cons z t => exact ⟨z, by simp, (List.isChain_cons_cons.1 hc.right_of_append).1⟩

lemma mem_of_edge (h : g.IsParentCycle e c) (hx : x ∈ c) (hy : g.ParentEdge x y) : y ∈ c := by
  obtain ⟨z, hz, hxz⟩ := h.exists_edge hx
  have : y = z := Option.some.inj (hy.symm.trans hxz)
  exact this ▸ hz

lemma mem_of_reach (h : g.IsParentCycle e c) (hx : x ∈ c) (hy : g.ParentReach x y) : y ∈ c := by
  induction hy with
  | refl => exact hx
  | tail _ hedge ih => exact h.mem_of_edge ih hedge

lemma reach_entry (h : g.IsParentCycle e c) (hx : x ∈ c) : g.ParentReach x e :=
  h.chain.backwards_concat_induction (g.ParentReach · e) c (fun _ _ hxy hy => hy.head hxy) .refl x hx

lemma entry_reach (h : g.IsParentCycle e c) (hx : x ∈ c) : g.ParentReach e x := by
  obtain ⟨t, rfl⟩ : ∃ t, c = e :: t := by
    cases c with
    | nil => simp at hx
    | cons b t => exact ⟨t, by simpa using h.head⟩
  exact h.chain.left_of_append.induction (g.ParentReach e) _ (fun _ _ hxy hx => hx.tail hxy)
    (fun _ => .refl) x hx

lemma reach (h : g.IsParentCycle e c) (hx : x ∈ c) (hy : y ∈ c) : g.ParentReach x y :=
  (h.reach_entry hx).trans (h.entry_reach hy)

/-- The classes of a cycle are in the graph, since they have parents. -/
lemma mem_names (h : g.IsParentCycle e c) (hx : x ∈ c) : x ∈ g.names := by
  obtain ⟨y, hy, hxy⟩ := h.exists_edge hx
  have hback : Relation.TransGen g.ParentEdge x x := .head' hxy (h.reach hy hx)
  obtain ⟨z, -, hzx⟩ := Relation.TransGen.tail'_iff.1 hback
  exact mem_names_of_parentOf (canonical_of_parentOf hzx) hxy

/-- Two cycles that share a class have the same classes. -/
lemma mem_iff (h : g.IsParentCycle e c) {e' : String} {c' : List String}
    (h' : g.IsParentCycle e' c') (hx : x ∈ c) (hx' : x ∈ c') : y ∈ c ↔ y ∈ c' :=
  ⟨fun hy => h'.mem_of_reach hx' (h.reach hx hy), fun hy => h.mem_of_reach hx (h'.reach hx' hy)⟩

end IsParentCycle

/-! ### One walk -/

/-- A walk that started at `n` has met the classes of `path`, all of them new, and is about to meet
`current`. -/
structure IsWalkTo (g : ClassGraph) (finished : List String) (n : String) (path : List String)
    (current : String) : Prop where
  head : (path ++ [current]).head? = some n
  nodup : path.Nodup
  fresh : ∀ x ∈ path, x ∉ finished
  chain : List.IsChain g.ParentEdge (path ++ [current])
  canonical : ∀ x ∈ path ++ [current], g.canonical x = x

/-- What a walk from `n` gives: the classes that it has met, and the one that it has met again, if it
has ended for that. -/
structure IsParentWalk (g : ClassGraph) (finished : List String) (n : String) (path : List String)
    (again : Option String) : Prop where
  head : ∀ x, path.head? = some x → x = n
  start : n ∈ path ∨ n ∈ finished
  nodup : path.Nodup
  fresh : ∀ x ∈ path, x ∉ finished
  chain : List.IsChain g.ParentEdge path
  canonical : ∀ x ∈ path, g.canonical x = x
  stop : ∀ x y, path.getLast? = some x → g.ParentEdge x y →
    (y ∈ finished ∧ again = none) ∨ (y ∈ path ∧ again = some y)
  met : ∀ y, again = some y → y ∈ path ∧ ∃ x, path.getLast? = some x ∧ g.ParentEdge x y

namespace IsWalkTo

variable {finished path : List String} {current p : String}

lemma head_eq (h : g.IsWalkTo finished n path current) (hx : path.head? = some x) : x = n := by
  simpa [hx] using h.head

lemma start (h : g.IsWalkTo finished n path current) : n = current ∨ n ∈ path := by
  rcases List.mem_append.1 (List.mem_of_head? h.head) with hn | hn
  · exact .inr hn
  · exact .inl (List.mem_singleton.1 hn)

lemma edge (h : g.IsWalkTo finished n path current) (hx : path.getLast? = some x) :
    g.ParentEdge x current :=
  (List.isChain_append.1 h.chain).2.2 x hx current (by simp)

lemma push (h : g.IsWalkTo finished n path current) (hfin : current ∉ finished)
    (hpath : current ∉ path) (hp : g.ParentEdge current p) :
    g.IsWalkTo finished n (path ++ [current]) p where
  head := by
    rw [List.head?_append, h.head]
    rfl
  nodup := List.nodup_append.2 ⟨h.nodup, by simp, by rintro a ha b hb rfl; simp_all⟩
  fresh := by
    intro x hx
    rcases List.mem_append.1 hx with hx | hx
    · exact h.fresh x hx
    · exact List.mem_singleton.1 hx ▸ hfin
  chain := h.chain.append (.singleton p) (by simpa using hp)
  canonical := by
    intro x hx
    rcases List.mem_append.1 hx with hx | hx
    · exact h.canonical x hx
    · exact List.mem_singleton.1 hx ▸ canonical_of_parentOf hp

/-- The walk ends before a class that is finished. -/
lemma walk_of_finished (h : g.IsWalkTo finished n path current) (hfin : current ∈ finished) :
    g.IsParentWalk finished n path none where
  head := fun x hx => h.head_eq hx
  start := by
    rcases h.start with rfl | hn
    · exact .inr hfin
    · exact .inl hn
  nodup := h.nodup
  fresh := h.fresh
  chain := h.chain.left_of_append
  canonical := fun x hx => h.canonical x (List.mem_append_left _ hx)
  stop := by
    intro x y hx hy
    have : y = current := Option.some.inj (hy.symm.trans (h.edge hx))
    exact .inl ⟨this ▸ hfin, rfl⟩
  met := by simp

/-- The walk ends before a class that it has met. -/
lemma walk_of_met (h : g.IsWalkTo finished n path current) (hpath : current ∈ path) :
    g.IsParentWalk finished n path (some current) where
  head := fun x hx => h.head_eq hx
  start := by
    rcases h.start with rfl | hn
    · exact .inl hpath
    · exact .inl hn
  nodup := h.nodup
  fresh := h.fresh
  chain := h.chain.left_of_append
  canonical := fun x hx => h.canonical x (List.mem_append_left _ hx)
  stop := by
    intro x y hx hy
    have : y = current := Option.some.inj (hy.symm.trans (h.edge hx))
    exact .inr ⟨this ▸ hpath, congrArg some this.symm⟩
  met := by
    intro y hy
    obtain rfl : current = y := Option.some.inj hy
    have hlast := List.getLast?_eq_getLast_of_ne_nil (List.ne_nil_of_mem hpath)
    exact ⟨hpath, _, hlast, h.edge hlast⟩

/-- The walk ends with a class that has no parent. -/
lemma walk_of_root (h : g.IsWalkTo finished n path current) (hfin : current ∉ finished)
    (hpath : current ∉ path) (hp : g.parentOf current = none) :
    g.IsParentWalk finished n (path ++ [current]) none where
  head := by simp [h.head]
  start := by
    rcases h.start with rfl | hn
    · simp
    · simp [hn]
  nodup := List.nodup_append.2 ⟨h.nodup, by simp, by rintro a ha b hb rfl; simp_all⟩
  fresh := by
    intro x hx
    rcases List.mem_append.1 hx with hx | hx
    · exact h.fresh x hx
    · exact List.mem_singleton.1 hx ▸ hfin
  chain := h.chain
  canonical := h.canonical
  stop := by
    intro x y hx hy
    have : x = current := by simpa using hx.symm
    simp [ParentEdge, this, hp] at hy
  met := by simp

lemma walk (h : g.IsWalkTo finished n path current) :
    g.IsParentWalk finished n (g.parentPath finished path current).1
      (g.parentPath finished path current).2 := by
  fun_induction g.parentPath finished path current with
  | case1 path current hfin => exact h.walk_of_finished hfin
  | case2 path current hfin hpath => exact h.walk_of_met hpath
  | case3 path current hfin hpath hn hp => exact h.walk_of_root hfin hpath hp
  | case4 path current hfin hpath hn p hp ih => exact ih (h.push hfin hpath hp)
  | case5 path current hfin hpath hn =>
    exact h.walk_of_root hfin hpath (parentOf_eq_none_of_not_mem (h.canonical current (by simp)) hn)

end IsWalkTo

lemma exists_isParentWalk (finished : List String) (hn : g.canonical n = n) :
    ∃ path again, g.parentPath finished [] n = (path, again) ∧
      g.IsParentWalk finished n path again :=
  ⟨_, _, rfl, IsWalkTo.walk ⟨rfl, .nil, by simp, .singleton n, by simpa using hn⟩⟩

namespace IsParentWalk

variable {finished path : List String} {again : Option String}

/-- A walk is one in every graph that has the same parents outside the finished classes. -/
lemma congr {g' : ClassGraph} (h : g'.IsParentWalk finished n path again)
    (hcanon : ∀ x, g'.canonical x = g.canonical x)
    (hparent : ∀ x, g.canonical x = x → x ∉ finished → g'.parentOf x = g.parentOf x) :
    g.IsParentWalk finished n path again := by
  have hedge : ∀ x ∈ path, ∀ y, g'.ParentEdge x y ↔ g.ParentEdge x y := by
    intro x hx y
    have hc : g.canonical x = x := (hcanon x).symm.trans (h.canonical x hx)
    rw [ParentEdge, ParentEdge, hparent x hc (h.fresh x hx)]
  refine ⟨h.head, h.start, h.nodup, h.fresh, ?_, ?_, ?_, ?_⟩
  · exact h.chain.imp_of_mem_imp fun x y hx _ hxy => (hedge x hx y).1 hxy
  · exact fun x hx => (hcanon x).symm.trans (h.canonical x hx)
  · exact fun x y hx hxy => h.stop x y hx ((hedge x (List.mem_of_getLast? hx) y).2 hxy)
  · intro y hy
    obtain ⟨hpath, x, hx, hxy⟩ := h.met y hy
    exact ⟨hpath, x, hx, (hedge x (List.mem_of_getLast? hx) y).1 hxy⟩

/-- The classes of a walk lead on to its last one. -/
lemma reach_last (h : g.IsParentWalk finished n path again) (hx : x ∈ path) :
    ∃ y, path.getLast? = some y ∧ g.ParentReach x y := by
  have hne := List.ne_nil_of_mem hx
  refine ⟨path.getLast hne, List.getLast?_eq_getLast_of_ne_nil hne, ?_⟩
  exact h.chain.backwards_induction (g.ParentReach · (path.getLast hne)) path
    (fun _ _ hxy hy => hy.head hxy) (fun _ => .refl) x hx

/-- From the first class of a walk every other one is met. -/
lemma reach_of_mem (h : g.IsParentWalk finished n path again) (hx : x ∈ path) :
    g.ParentReach n x :=
  h.chain.induction (g.ParentReach n) path (fun _ _ hxy hx => hx.tail hxy)
    (fun hne => h.head _ (List.head?_eq_some_head hne) ▸ .refl) x hx

/-- The parents of the classes of a walk are met by it or were finished before. -/
lemma mem_of_edge (h : g.IsParentWalk finished n path again) (hx : x ∈ path)
    (hy : g.ParentEdge x y) : y ∈ path ++ finished := by
  obtain ⟨s, t, rfl⟩ := List.append_of_mem hx
  cases t with
  | nil =>
    rcases h.stop x y (by simp) hy with ⟨hy, -⟩ | ⟨hy, -⟩
    · exact List.mem_append_right _ hy
    · exact List.mem_append_left _ hy
  | cons z t =>
    have hz : g.ParentEdge x z := (List.isChain_cons_cons.1 h.chain.right_of_append).1
    have : y = z := Option.some.inj (hy.symm.trans hz)
    simp [this]

/-- A walk that has met a class again consists of the way to that class and a cycle from there on. -/
lemma exists_cycle (h : g.IsParentWalk finished n path (some a)) :
    ∃ way, path = way ++ fromFirst a path ∧ g.IsParentCycle a (fromFirst a path) ∧
      (∀ x ∈ way, x ∉ fromFirst a path) ∧ List.IsChain g.ParentEdge (way ++ [a]) ∧
      (way ++ [a]).head? = some n := by
  obtain ⟨ha, z, hz, hedge⟩ := h.met a rfl
  obtain ⟨way, rest, rfl, hway, hrest⟩ := exists_eq_append_fromFirst ha
  rw [hrest]
  refine ⟨way, rfl, ⟨rfl, ?_, ?_⟩, ?_, ?_, ?_⟩
  · exact (List.nodup_append.1 h.nodup).2.1
  · refine h.chain.right_of_append.append (.singleton a) ?_
    intro x hx y hy
    have hxz : x = z := by
      rw [List.getLast?_append_of_ne_nil _ (List.cons_ne_nil a rest)] at hz
      exact Option.some.inj (hx.symm.trans hz)
    have hya : a = y := by simpa using hy
    exact hxz ▸ hya ▸ hedge
  · intro x hx hxr
    exact (List.nodup_append.1 h.nodup).2.2 x hx x hxr rfl
  · exact h.chain.prefix ⟨rest, by simp⟩
  · cases way with
    | nil => simpa using h.head a (by simp)
    | cons b t => simpa using h.head b (by simp)

end IsParentWalk

end DocGraph.ClassGraph
