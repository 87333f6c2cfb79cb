import DocGraph.Proofs.Graph.ParentCycle
import Mathlib.Data.List.Nodup

/-!
# Cutting the cycles of parents

Classes are visited in the order of their names, and the parents of each are followed until a class is
met that is finished. The invariant says which cycles have been met so far: just those among the
finished classes, each by the first class from which it is reached.

Main statement: each cycle loses one edge, no other edge is lost, one report is given for each cycle, and
no chain of parents is endless afterwards.
-/

namespace DocGraph.ClassGraph

variable {g : ClassGraph} {m n x y : String} {ns : List String} {s : Cutting}

/-! ### Cycles as they are met -/

/-- A cycle of parents with the first class from which it is reached, the class by which the chain from
there enters it, and the class whose parent that one is. -/
structure MetCycle (g : ClassGraph) where
  start : String
  entry : String
  closing : String
  cycle : List String
  isCycle : g.IsParentCycle entry cycle
  closing_mem : closing ∈ cycle
  closes : g.ParentEdge closing entry
  least : IsLeast {n | n ∈ g.names ∧ ∃ x ∈ cycle, g.ParentReach n x} start
  enters : ∃ way, (∀ x ∈ way, x ∉ cycle) ∧ List.IsChain g.ParentEdge (way ++ [entry]) ∧
    (way ++ [entry]).head? = some start

/-- The report of a cycle that is cut. It lists the classes from the entry back to the entry. -/
def MetCycle.report (k : MetCycle g) : Event :=
  .warning (g.cycleDiagnostic k.closing .parent (k.cycle ++ [k.entry]))

/-- The first class that reaches a cycle is the same for two cycles with the same classes. -/
lemma MetCycle.start_eq {k l : MetCycle g} (h : ∀ x, x ∈ k.cycle ↔ x ∈ l.cycle) :
    k.start = l.start := by
  have hl := l.least
  simp only [← h] at hl
  exact k.least.unique hl

/-! ### The invariant -/

/-- What has been done when the classes `ns` have been visited: the cycles `cuts` have been met. -/
structure IsCutting (g : ClassGraph) (ns : List String) (s : Cutting) (cuts : List (MetCycle g)) :
    Prop where
  graph : s.graph = g.withoutParents (cuts.map MetCycle.closing)
  journal : s.journal = cuts.map MetCycle.report
  starts : (cuts.map MetCycle.start).Sublist ns
  visited : ∀ n ∈ ns, n ∈ s.finished
  closed : ∀ x ∈ s.finished, ∀ y, g.ParentEdge x y → y ∈ s.finished
  met : ∀ k ∈ cuts, ∀ x ∈ k.cycle, x ∈ s.finished
  all : ∀ e c, g.IsParentCycle e c → e ∈ s.finished → ∃ k ∈ cuts, ∀ x, x ∈ k.cycle ↔ x ∈ c

namespace IsCutting

variable {cuts : List (MetCycle g)}

lemma mem_of_reach (h : g.IsCutting ns s cuts) (hx : x ∈ s.finished) (hy : g.ParentReach x y) :
    y ∈ s.finished := by
  induction hy with
  | refl => exact hx
  | tail _ hedge ih => exact h.closed _ ih _ hedge

/-- Outside the finished classes no parent has been cut off. -/
lemma parentOf_eq (h : g.IsCutting ns s cuts) (hc : g.canonical x = x) (hx : x ∉ s.finished) :
    s.graph.parentOf x = g.parentOf x := by
  rw [h.graph, parentOf_withoutParents, hc, if_neg]
  intro hcut
  obtain ⟨k, hk, rfl⟩ := List.mem_map.1 hcut
  exact hx (h.met k hk _ k.closing_mem)

lemma walk (h : g.IsCutting ns s cuts) (hn : n ∈ g.names) :
    ∃ path again, s.graph.parentPath s.finished [] n = (path, again) ∧
      g.IsParentWalk s.finished n path again := by
  have hcanon : ∀ x, s.graph.canonical x = g.canonical x := by
    rw [h.graph]
    exact fun x => rfl
  have hn' : s.graph.canonical n = n := (hcanon n).trans (canonical_of_mem_names hn)
  obtain ⟨path, again, heq, hw⟩ := exists_isParentWalk s.finished hn'
  exact ⟨path, again, heq, hw.congr hcanon fun x => h.parentOf_eq⟩

/-- The classes met by the next walk are as closed under parents as the finished ones. -/
lemma closed_append (h : g.IsCutting ns s cuts) {path : List String} {again : Option String}
    (hw : g.IsParentWalk s.finished n path again) :
    ∀ x ∈ path ++ s.finished, ∀ y, g.ParentEdge x y → y ∈ path ++ s.finished := by
  intro x hx y hy
  rcases List.mem_append.1 hx with hx | hx
  · exact hw.mem_of_edge hx hy
  · exact List.mem_append_right _ (h.closed x hx y hy)

lemma visited_append (h : g.IsCutting ns s cuts) {path : List String} {again : Option String}
    (hw : g.IsParentWalk s.finished n path again) : ∀ m ∈ ns ++ [n], m ∈ path ++ s.finished := by
  intro m hm
  rcases List.mem_append.1 hm with hm | hm
  · exact List.mem_append_right _ (h.visited m hm)
  · rw [List.mem_singleton.1 hm]
    exact List.mem_append.2 hw.start

/-- A walk that meets no class again has met no cycle that is not finished. -/
lemma step_none (h : g.IsCutting ns s cuts) {path : List String}
    (hw : g.IsParentWalk s.finished n path none) :
    g.IsCutting (ns ++ [n]) { s with finished := path ++ s.finished } cuts where
  graph := h.graph
  journal := h.journal
  starts := h.starts.trans (List.sublist_append_left _ _)
  visited := h.visited_append hw
  closed := h.closed_append hw
  met := fun k hk x hx => List.mem_append_right _ (h.met k hk x hx)
  all := by
    intro e c hc he
    rcases List.mem_append.1 he with he | he
    · -- the walk would have gone round the cycle
      obtain ⟨z, hz, hez⟩ := hw.reach_last he
      have hzc := hc.mem_of_reach hc.entry_mem hez
      obtain ⟨y, hyc, hzy⟩ := hc.exists_edge hzc
      rcases hw.stop z y hz hzy with ⟨hy, -⟩ | ⟨-, hy⟩
      · exact absurd (h.mem_of_reach hy (hc.reach_entry hyc)) (hw.fresh e he)
      · simp at hy
    · exact h.all e c hc he

/-- The cycle into which a walk has run, when no class before `n` reaches it. -/
lemma exists_metCycle (h : g.IsCutting ns s cuts) {path : List String} {a closing : String}
    (hw : g.IsParentWalk s.finished n path (some a)) (hclosing : path.getLast? = some closing)
    (hn : n ∈ g.names) (hns : ∀ m ∈ g.names, m ∈ ns ∨ n ≤ m) :
    ∃ k : MetCycle g, k.start = n ∧ k.entry = a ∧ k.closing = closing ∧
      k.cycle = fromFirst a path := by
  obtain ⟨way, hpath, hc, hway, hchain, hhead⟩ := hw.exists_cycle
  have hsub : ∀ x ∈ fromFirst a path, x ∈ path := fun x hx => List.dropWhile_subset _ hx
  have hne : fromFirst a path ≠ [] := List.ne_nil_of_mem hc.entry_mem
  refine ⟨⟨n, a, closing, fromFirst a path, hc, ?_, ?_, ⟨⟨hn, a, hc.entry_mem, ?_⟩, ?_⟩,
    ⟨way, hway, hchain, hhead⟩⟩, rfl, rfl, rfl, rfl⟩
  · rw [hpath, List.getLast?_append_of_ne_nil _ hne] at hclosing
    exact List.mem_of_getLast? hclosing
  · obtain ⟨-, z, hz, hza⟩ := hw.met a rfl
    exact Option.some.inj (hclosing.symm.trans hz) ▸ hza
  · exact hw.reach_of_mem (hsub a hc.entry_mem)
  · -- a class that was visited before reaches finished classes only
    rintro m ⟨hm, x, hx, hmx⟩
    rcases hns m hm with hm | hm
    · exact absurd (h.mem_of_reach (h.visited m hm) hmx) (hw.fresh x (hsub x hx))
    · exact hm

/-- A walk that meets a class again has met one new cycle. -/
lemma step_some (h : g.IsCutting ns s cuts) {path : List String} {a closing : String}
    (hw : g.IsParentWalk s.finished n path (some a)) (hclosing : path.getLast? = some closing)
    {k : MetCycle g} (hstart : k.start = n) (hentry : k.entry = a) (hk : k.closing = closing)
    (hcycle : k.cycle = fromFirst a path) :
    g.IsCutting (ns ++ [n])
      { graph := s.graph.cutParent closing
        finished := path ++ s.finished
        journal := s.journal ++
          [.warning (s.graph.cycleDiagnostic closing .parent (fromFirst a path ++ [a]))] }
      (cuts ++ [k]) where
  graph := by
    have hfresh : closing ∉ g.cutParents ++ cuts.map MetCycle.closing := by
      have hpath := List.mem_of_getLast? hclosing
      rw [List.mem_append, not_or]
      constructor
      · have := not_mem_cutParents k.closes
        rwa [hk, hw.canonical closing hpath] at this
      · intro hmem
        obtain ⟨l, hl, hlc⟩ := List.mem_map.1 hmem
        exact hw.fresh closing hpath (hlc ▸ h.met l hl _ l.closing_mem)
    rw [h.graph, cutParent_withoutParents hfresh]
    simp [hk]
  journal := by
    rw [h.journal, h.graph]
    simp only [List.map_append, List.map_cons, List.map_nil, MetCycle.report, hk, hcycle, hentry]
    rfl
  starts := by
    simpa [hstart] using h.starts.append_right [n]
  visited := h.visited_append hw
  closed := h.closed_append hw
  met := by
    intro l hl x hx
    rcases List.mem_append.1 hl with hl | hl
    · exact List.mem_append_right _ (h.met l hl x hx)
    · rw [List.mem_singleton.1 hl, hcycle] at hx
      exact List.mem_append_left _ (List.dropWhile_subset _ hx)
  all := by
    intro e c hc he
    rcases List.mem_append.1 he with he | he
    · -- the cycle goes through the last class of the walk, as the new one does
      refine ⟨k, by simp, fun x => ?_⟩
      obtain ⟨z, hz, hez⟩ := hw.reach_last he
      have hzk : z = k.closing := (Option.some.inj (hz.symm.trans hclosing)).trans hk.symm
      exact k.isCycle.mem_iff hc k.closing_mem (hzk ▸ hc.mem_of_reach hc.entry_mem hez)
    · obtain ⟨l, hl, hlc⟩ := h.all e c hc he
      exact ⟨l, by simp [hl], hlc⟩

/-- The next class is visited. -/
lemma step (h : g.IsCutting ns s cuts) (hn : n ∈ g.names) (hns : ∀ m ∈ g.names, m ∈ ns ∨ n ≤ m) :
    ∃ cuts', g.IsCutting (ns ++ [n]) (cutParentCycleFrom s n) cuts' := by
  obtain ⟨path, again, heq, hw⟩ := h.walk hn
  rw [cutParentCycleFrom, heq]
  cases again with
  | none => exact ⟨cuts, h.step_none hw⟩
  | some a =>
    obtain ⟨-, closing, hclosing, -⟩ := hw.met a rfl
    obtain ⟨k, hstart, hentry, hk, hcycle⟩ := h.exists_metCycle hw hclosing hn hns
    simp only [hclosing]
    exact ⟨cuts ++ [k], h.step_some hw hclosing hstart hentry hk hcycle⟩

/-- All classes that are left are visited. -/
lemma run (h : g.IsCutting ns s cuts) {rest : List String}
    (hrest : g.sortedNames = ns ++ rest) :
    ∃ cuts', g.IsCutting g.sortedNames (rest.foldl cutParentCycleFrom s) cuts' := by
  induction rest generalizing ns s cuts with
  | nil =>
    rw [List.append_nil] at hrest
    exact ⟨cuts, hrest ▸ h⟩
  | cons n rest ih =>
    have hmem : ∀ m, m ∈ g.names ↔ m ∈ ns ∨ m = n ∨ m ∈ rest := by
      intro m
      rw [← mem_sortedNames, hrest]
      simp
    have hns : ∀ m ∈ g.names, m ∈ ns ∨ n ≤ m := by
      intro m hm
      rcases (hmem m).1 hm with hm | rfl | hm
      · exact .inl hm
      · exact .inr le_rfl
      · have hs := g.pairwise_sortedNames
        rw [hrest, List.pairwise_append] at hs
        exact .inr (List.rel_of_pairwise_cons hs.2.1 hm).le
    obtain ⟨cuts', h'⟩ := h.step ((hmem n).2 (by simp)) hns
    exact ih h' (by simp [hrest])

end IsCutting

/-- The cycles that the cutting meets. -/
lemma exists_isCutting (g : ClassGraph) :
    ∃ s cuts, g.cutParentCycles = (s.graph, s.journal) ∧ g.IsCutting g.sortedNames s cuts := by
  have h : g.IsCutting [] { graph := g } [] := by
    constructor <;> simp
  obtain ⟨cuts, h'⟩ := h.run (List.nil_append _).symm
  exact ⟨_, cuts, rfl, h'⟩

/-! ### After the cutting -/

/-- Whatever is reached from a class that reaches itself leads back to it. -/
lemma transGen_of_parentReach {r : String → String → Prop} (hr : ∀ x y, r x y → g.ParentEdge x y)
    (h : Relation.TransGen r n n) (hx : g.ParentReach n x) : Relation.TransGen r x n := by
  induction hx with
  | refl => exact h
  | @tail x y _ hedge ih =>
    obtain ⟨z, hxz, hz⟩ := Relation.TransGen.head'_iff.1 ih
    have : z = y := Option.some.inj ((hr x z hxz).symm.trans hedge)
    subst this
    exact Relation.TransGen.trans_right hz h

/-- A class that reaches itself lies on a cycle. -/
lemma exists_isParentCycle (h : Relation.TransGen g.ParentEdge n n) :
    ∃ e c, g.IsParentCycle e c ∧ n ∈ c := by
  obtain ⟨p, hpn, hp⟩ := Relation.TransGen.tail'_iff.1 h
  obtain ⟨path, again, -, hw⟩ := exists_isParentWalk [] (canonical_of_parentOf hp)
  have hn : n ∈ path := by simpa using hw.start
  cases again with
  | none =>
    obtain ⟨z, hz, hnz⟩ := hw.reach_last hn
    obtain ⟨y, hzy, -⟩ := Relation.TransGen.head'_iff.1
      (transGen_of_parentReach (fun _ _ h => h) h hnz)
    simpa using hw.stop z y hz hzy
  | some a =>
    obtain ⟨-, -, hc, -⟩ := hw.exists_cycle
    have ha : a ∈ path := (hw.met a rfl).1
    have han := transGen_of_parentReach (fun _ _ h => h) h (hw.reach_of_mem ha)
    exact ⟨a, _, hc, hc.mem_of_reach hc.entry_mem han.to_reflTransGen⟩

namespace IsCutting

variable {cuts : List (MetCycle g)}

/-- A class keeps its parent unless it is the one at which a cycle was cut. -/
lemma parentOf_cut (h : g.IsCutting ns s cuts) (n : String) :
    s.graph.parentOf n =
      if g.canonical n ∈ cuts.map MetCycle.closing then none else g.parentOf n := by
  rw [h.graph, parentOf_withoutParents]

lemma edge_of_edge_cut (h : g.IsCutting ns s cuts) (hx : s.graph.ParentEdge x y) :
    g.ParentEdge x y := by
  rw [ParentEdge, h.parentOf_cut] at hx
  split at hx
  · simp at hx
  · exact hx

/-- Each cycle is the cycle of one cut. -/
lemma existsUnique_cut (h : g.IsCutting g.sortedNames s cuts) {e : String} {c : List String}
    (hc : g.IsParentCycle e c) : ∃! k, k ∈ cuts ∧ ∀ x, x ∈ k.cycle ↔ x ∈ c := by
  have he := h.visited e (mem_sortedNames.2 (hc.mem_names hc.entry_mem))
  obtain ⟨k, hk, hkc⟩ := h.all e c hc he
  refine ⟨k, ⟨hk, hkc⟩, ?_⟩
  rintro l ⟨hl, hlc⟩
  have hnodup : (cuts.map MetCycle.start).Nodup :=
    (g.pairwise_sortedNames.imp ne_of_lt).sublist h.starts
  have hstart := MetCycle.start_eq fun x => (hlc x).trans (hkc x).symm
  exact List.inj_on_of_nodup_map hnodup hl hk hstart

/-- When all classes have been visited, no class reaches itself any more. -/
lemma acyclic (h : g.IsCutting g.sortedNames s cuts) (n : String) :
    ¬Relation.TransGen s.graph.ParentEdge n n := by
  intro hn
  obtain ⟨e, c, hc, hnc⟩ := exists_isParentCycle
    (Relation.TransGen.mono (fun _ _ => h.edge_of_edge_cut) n n hn)
  obtain ⟨k, ⟨hk, hkc⟩, -⟩ := h.existsUnique_cut hc
  have hclosing := (hkc _).1 k.closing_mem
  -- the class at which the cycle was cut has lost its parent
  have hback := transGen_of_parentReach (fun _ _ => h.edge_of_edge_cut) hn (hc.reach hnc hclosing)
  obtain ⟨y, hy, -⟩ := Relation.TransGen.head'_iff.1 hback
  have hcanon := canonical_of_mem_names (hc.mem_names hclosing)
  rw [ParentEdge, h.parentOf_cut, hcanon, if_pos (List.mem_map_of_mem hk)] at hy
  simp at hy

end IsCutting

/-- Where every parent in the graph has a lower rank than the class, there is no cycle. -/
lemma not_isParentCycle_of_rank (rank : String → Nat)
    (h : ∀ n ∈ g.names, ∀ p ∈ g.names, g.parentOf n = some p → rank p < rank n) {e : String}
    {c : List String} : ¬g.IsParentCycle e c := by
  intro hc
  have hno : ∀ k, ∀ x ∈ c, ¬rank x < k := by
    intro k
    induction k with
    | zero => simp
    | succ k ih =>
      intro x hx hk
      obtain ⟨y, hy, hxy⟩ := hc.exists_edge hx
      exact ih y hy ((h x (hc.mem_names hx) y (hc.mem_names hy) hxy).trans_le (Nat.lt_succ_iff.1 hk))
  exact hno _ e hc.entry_mem (Nat.lt_succ_self _)

/-- A graph without cycles of parents is left as it is. -/
lemma cutParentCycles_of_rank (rank : String → Nat)
    (h : ∀ n ∈ g.names, ∀ p ∈ g.names, g.parentOf n = some p → rank p < rank n) :
    g.cutParentCycles.1 = g := by
  obtain ⟨s, cuts, heq, hs⟩ := exists_isCutting g
  have hcuts : cuts = [] :=
    List.eq_nil_iff_forall_not_mem.2 fun k _ => not_isParentCycle_of_rank rank h k.isCycle
  rw [heq, hs.graph, hcuts]
  exact g.withoutParents_nil

end DocGraph.ClassGraph
