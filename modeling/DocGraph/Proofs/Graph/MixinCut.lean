import DocGraph.Proofs.Graph.MixinCycle
import Mathlib.Data.List.Nodup

/-!
# Cutting the cycles of mixins

What each step of the search does to its invariant, and what the whole search comes to.

Main statement: afterwards no mixins lead back to a class, each edge that was cut would close a cycle
again, no other edge is lost, and one report is given for each edge that was cut.
-/

namespace DocGraph.ClassGraph

variable {g : ClassGraph} {n m x y : String} {stack ms : List String} {s s' : Cutting}
  {pend pend' : String → String → Prop} {cuts cuts' : List (MixinCut g)}

/-! ### Steps of the search -/

/-- Cut an edge that leads back into the stack, and report the cycle. -/
def Cutting.cutBack (s : Cutting) (stack : List String) (n m : String) : Cutting :=
  { s with
    graph := s.graph.cutMixin n m
    journal := s.journal ++
      [.warning (s.graph.cycleDiagnostic n .mixin (fromFirst m stack.reverse ++ [m]))] }

namespace IsSearch

/-- Looking at an edge without cutting it leaves the rest as it is. -/
lemma mono (h : g.IsSearch pend stack s cuts) (hp : ∀ x y, pend' x y → pend x y) :
    g.IsSearch pend' stack s cuts := by
  have hkept : ∀ x y, g.KeptEdge pend stack s x y → g.KeptEdge pend' stack s x y :=
    fun x y hxy => { hxy with looked := fun hpend => hxy.looked (hp x y hpend) }
  exact { h with
    way := fun k hk => (h.way k hk).imp hkept
    path := h.path.imp fun y x => hkept x y }

lemma names_eq (h : g.IsSearch pend stack s cuts) : s.graph.names = g.names := by
  rw [h.graph, names_withoutMixins]

/-- A class is entered from the class at the top of the stack. -/
lemma enter (h : g.IsSearch pend stack s cuts) (hbelow : ∀ x y, pend x y → x ∈ stack)
    (hn : n ∈ g.names) (hfresh : n ∉ stack) (hfin : n ∉ s.finished)
    (hcall : ∀ p, stack.head? = some p → g.KeptEdge pend stack s p n) :
    g.IsLoop pend stack n (s.graph.mixinsOf n) s cuts := by
  have hkept : ∀ x y, g.KeptEdge pend stack s x y →
      g.KeptEdge (fun x y => pend x y ∨ x = n ∧ y ∈ s.graph.mixinsOf n) (n :: stack) s x y := by
    intro x y hxy
    refine ⟨hxy.left, hxy.right, hxy.mem, ?_, hxy.owner.imp_right (List.mem_cons_of_mem n)⟩
    rintro (hp | ⟨rfl, -⟩)
    · exact hxy.looked hp
    · exact hxy.owner.elim hfin hfresh
  refine ⟨?_, hbelow, hfresh, nodup_mixinsOf _ n, fun m hm => hm, fun m hm _ => .inr hm⟩
  exact { h with
    way := fun k hk => (h.way k hk).imp hkept
    path := (h.path.imp fun y x => hkept x y).cons fun p hp => hkept p n (hcall p hp)
    names := by simpa using ⟨hn, h.names⟩
    unfinished := by simpa using ⟨hfin, h.unfinished⟩ }

end IsSearch

namespace IsLoop

lemma mem_names (h : g.IsLoop pend stack n ms s cuts) : n ∈ g.names :=
  h.search.names n (List.mem_cons_self ..)

/-- While a mixin is visited, the ones after it are still to be looked at. -/
lemma pass (h : g.IsLoop pend stack n (m :: ms) s cuts) :
    g.IsSearch (fun x y => pend x y ∨ x = n ∧ y ∈ ms) (n :: stack) s cuts :=
  h.search.mono fun _ _ hp => hp.imp_right fun hp => ⟨hp.1, List.mem_cons_of_mem m hp.2⟩

lemma pass_below (h : g.IsLoop pend stack n (m :: ms) s cuts) :
    ∀ x y, pend x y ∨ x = n ∧ y ∈ ms → x ∈ n :: stack := by
  rintro x y (hp | ⟨rfl, -⟩)
  · exact List.mem_cons_of_mem n (h.below x y hp)
  · exact List.mem_cons_self ..

/-- A mixin outside the graph, or a finished one, is passed over. -/
lemma skip (h : g.IsLoop pend stack n (m :: ms) s cuts) (hm : m ∉ g.names ∨ m ∈ s.finished) :
    g.IsLoop pend stack n ms s cuts where
  search := h.pass
  below := h.below
  fresh := h.fresh
  nodup := (List.nodup_cons.1 h.nodup).2
  listed := fun m' hm' => h.listed m' (List.mem_cons_of_mem m hm')
  looked := by
    intro m' hm' hnames
    rcases h.looked m' hm' hnames with hfin | hmem
    · exact .inl hfin
    · rcases List.mem_cons.1 hmem with rfl | hmem
      · exact .inl (hm.resolve_left (not_not.2 hnames))
      · exact .inr hmem

/-- The edge to a mixin that has not been looked at is kept once it has. -/
lemma keptEdge (h : g.IsLoop pend stack n (m :: ms) s cuts) (hm : m ∈ g.names) :
    g.KeptEdge (fun x y => pend x y ∨ x = n ∧ y ∈ ms) (n :: stack) s n m where
  left := h.mem_names
  right := hm
  mem := h.listed m (List.mem_cons_self ..)
  looked := by
    rintro (hp | ⟨-, hmem⟩)
    · exact h.fresh (h.below n m hp)
    · exact (List.nodup_cons.1 h.nodup).1 hmem
  owner := .inr (List.mem_cons_self ..)

/-- A mixin has been visited, which has left the mixins of all classes on the stack as they were. -/
lemma visited (h : g.IsLoop pend stack n (m :: ms) s cuts)
    (h' : g.IsSearch (fun x y => pend x y ∨ x = n ∧ y ∈ ms) (n :: stack) s' cuts')
    (hm : m ∈ s'.finished) (hleaves : Leaves (n :: stack) s s') :
    g.IsLoop pend stack n ms s' cuts' := by
  have hmixins := hleaves.mixins n (List.mem_cons_self ..)
  refine ⟨h', h.below, h.fresh, (List.nodup_cons.1 h.nodup).2, ?_, ?_⟩
  · intro m' hm'
    rw [hmixins]
    exact h.listed m' (List.mem_cons_of_mem m hm')
  · intro m' hm' hnames
    rw [hmixins] at hm'
    rcases h.looked m' hm' hnames with hfin | hmem
    · exact .inl (hleaves.finished m' hfin)
    · rcases List.mem_cons.1 hmem with rfl | hmem
      · exact .inl hm
      · exact .inr hmem

/-- The cut of an edge that leads back into the stack. -/
lemma exists_mixinCut (h : g.IsLoop pend stack n (m :: ms) s cuts) (hm : m ∈ g.names)
    (hstack : m ∈ n :: stack) :
    ∃ k : MixinCut g, k.cls = n ∧ k.mixin = m ∧ k.way = fromFirst m (n :: stack).reverse ∧
      k.way <:+ (n :: stack).reverse := by
  obtain ⟨before, after, heq, -, hway⟩ := exists_eq_append_fromFirst (List.mem_reverse.2 hstack)
  have hedge : m ∈ g.mixinsOf n := by
    have hlisted := h.listed m (List.mem_cons_self ..)
    rw [h.search.graph, mem_mixinsOf_withoutMixins] at hlisted
    exact hlisted.1
  have hlast : (m :: after).getLast? = some n := by
    rw [← List.getLast?_append_of_ne_nil before (List.cons_ne_nil m after), ← heq,
      List.getLast?_reverse, List.head?_cons]
  refine ⟨⟨n, m, m :: after, ⟨h.mem_names, hm, hedge⟩, rfl, hlast⟩, rfl, rfl, hway.symm, ?_⟩
  exact heq ▸ List.suffix_append before (m :: after)

lemma canonical_eq (h : g.IsLoop pend stack n ms s cuts) {x : String} (hx : x ∈ g.names) :
    s.graph.canonical x = x :=
  canonical_of_mem_names (h.search.names_eq.symm ▸ hx)

/-- An edge that is still to be looked at has not been cut. -/
lemma not_mem_cuts (h : g.IsLoop pend stack n (m :: ms) s cuts) :
    (n, m) ∉ g.cutMixins ++ cuts.map MixinCut.pair := by
  have hcut := not_mem_cutMixins (h.listed m (List.mem_cons_self ..))
  rwa [h.canonical_eq h.mem_names, h.search.graph] at hcut

/-- The edge that is cut was still to be looked at, so it is none of those that were kept. -/
lemma keptEdge_cut (h : g.IsLoop pend stack n (m :: ms) s cuts) {x y : String}
    (hxy : g.KeptEdge (fun x y => pend x y ∨ x = n ∧ y ∈ m :: ms) (n :: stack) s x y) :
    g.KeptEdge (fun x y => pend x y ∨ x = n ∧ y ∈ ms) (n :: stack) (s.cutBack (n :: stack) n m)
      x y := by
  refine ⟨hxy.left, hxy.right, mem_mixinsOf_cutMixin.2 ⟨hxy.mem, ?_⟩, ?_, hxy.owner⟩
  · rw [h.canonical_eq hxy.left]
    rintro hcut
    obtain ⟨rfl, rfl⟩ := Prod.mk.injEq .. ▸ hcut
    exact hxy.looked (.inr ⟨rfl, List.mem_cons_self ..⟩)
  · exact fun hp => hxy.looked (hp.imp_right fun hp => ⟨hp.1, List.mem_cons_of_mem m hp.2⟩)

/-- An edge that leads back into the stack is cut. -/
lemma cut (h : g.IsLoop pend stack n (m :: ms) s cuts) {k : MixinCut g} (hcls : k.cls = n)
    (hmixin : k.mixin = m) (hway : k.way = fromFirst m (n :: stack).reverse)
    (hsuffix : k.way <:+ (n :: stack).reverse) :
    g.IsLoop pend stack n ms (s.cutBack (n :: stack) n m) (cuts ++ [k]) := by
  have hs := h.search
  have hpair : k.pair = (n, m) := by rw [MixinCut.pair, hcls, hmixin]
  have hgraph : s.graph.cutMixin n m = g.withoutMixins ((cuts ++ [k]).map MixinCut.pair) := by
    rw [hs.graph, cutMixin_withoutMixins h.not_mem_cuts]
    simp [hpair]
  have hpath := hs.path.imp fun y x => h.keptEdge_cut (x := x) (y := y)
  refine ⟨?_, h.below, h.fresh, (List.nodup_cons.1 h.nodup).2, ?_, ?_⟩
  · exact { hs with
      graph := hgraph
      journal := by
        simp only [Cutting.cutBack, hs.journal, hs.graph, List.map_append, List.map_cons, List.map_nil,
          MixinCut.report, hcls, hmixin, hway]
        rfl
      nodup := by
        rw [List.map_append, List.nodup_append]
        refine ⟨hs.nodup, by simp, ?_⟩
        rintro a ha b hb rfl
        rw [List.map_singleton, List.mem_singleton, hpair] at hb
        exact h.not_mem_cuts (List.mem_append_right _ (hb ▸ ha))
      way := by
        intro l hl
        rcases List.mem_append.1 hl with hl | hl
        · exact (hs.way l hl).imp fun x y => h.keptEdge_cut
        · rw [List.mem_singleton.1 hl]
          exact (List.isChain_reverse.2 hpath).suffix hsuffix
      path := hpath
      forward := by
        refine hs.forward.mono fun x y hxy => ⟨hxy.left, hxy.right, ?_⟩
        exact (mem_mixinsOf_cutMixin.1 hxy.mem).1 }
  · intro m' hm'
    refine mem_mixinsOf_cutMixin.2 ⟨h.listed m' (List.mem_cons_of_mem m hm'), ?_⟩
    intro hcut
    obtain ⟨-, rfl⟩ := Prod.mk.injEq .. ▸ hcut
    exact (List.nodup_cons.1 h.nodup).1 hm'
  · intro m' hm' hnames
    obtain ⟨hmem, hne⟩ := mem_mixinsOf_cutMixin.1 hm'
    rw [h.canonical_eq h.mem_names] at hne
    rcases h.looked m' hmem hnames with hfin | hmem
    · exact .inl hfin
    · exact .inr ((List.mem_cons.1 hmem).resolve_left fun heq => hne (heq ▸ rfl))

/-- Cutting an edge of one class leaves the mixins of all other classes. -/
lemma leaves_cut (h : g.IsLoop pend stack n ms s cuts) :
    Leaves stack s (s.cutBack (n :: stack) n m) where
  mixins := by
    intro x hx
    rw [Cutting.cutBack, mixinsOf_cutMixin, List.filter_eq_self]
    intro y hy
    rw [decide_eq_true_eq, h.canonical_eq (h.search.names x (List.mem_cons_of_mem n hx))]
    rintro hxy
    obtain ⟨rfl, -⟩ := Prod.mk.injEq .. ▸ hxy
    exact h.fresh hx
  finished := fun _ hx => hx

/-- The class is left when all of its mixins have been looked at. -/
lemma leave (h : g.IsLoop pend stack n [] s cuts) :
    g.IsSearch pend stack { s with finished := n :: s.finished } cuts := by
  have hs := h.search
  have hkept : ∀ x y, g.KeptEdge (fun x y => pend x y ∨ x = n ∧ y ∈ []) (n :: stack) s x y →
      g.KeptEdge pend stack { s with finished := n :: s.finished } x y := by
    intro x y hxy
    refine ⟨hxy.left, hxy.right, hxy.mem, fun hp => hxy.looked (.inl hp), ?_⟩
    rcases hxy.owner with hx | hx
    · exact .inl (List.mem_cons_of_mem n hx)
    · rcases List.mem_cons.1 hx with rfl | hx
      · exact .inl (List.mem_cons_self ..)
      · exact .inr hx
  exact { hs with
    way := fun k hk => (hs.way k hk).imp hkept
    path := hs.path.tail.imp fun y x => hkept x y
    names := fun x hx => hs.names x (List.mem_cons_of_mem n hx)
    unfinished := by
      intro x hx hfin
      rcases List.mem_cons.1 hfin with rfl | hfin
      · exact h.fresh hx
      · exact hs.unfinished x (List.mem_cons_of_mem n hx) hfin
    once := List.nodup_cons.2 ⟨hs.unfinished n (List.mem_cons_self ..), hs.once⟩
    known := by simpa using ⟨h.mem_names, hs.known⟩
    forward := by
      refine ⟨fun m hm => ?_, hs.forward⟩
      have hnames := hs.names_eq ▸ hm.right
      simpa using h.looked m hm.mem hnames }

end IsLoop

/-! ### The whole search -/

/-- A visit ends with the class finished, and a look at some mixins with all of them finished or cut. The
stack and the mixins of the classes on it are as before. -/
lemma isSearch_visit (g : ClassGraph) :
    (∀ (stack : List String) (n : String) (s : Cutting),
      ∀ pend cuts, g.IsSearch pend stack s cuts → (∀ x y, pend x y → x ∈ stack) → n ∈ g.names →
        n ∉ stack → n ∉ s.finished →
        (∀ p, stack.head? = some p → g.KeptEdge pend stack s p n) →
        ∃ cuts', g.IsSearch pend stack (visitMixins g.names stack n s) cuts' ∧
          n ∈ (visitMixins g.names stack n s).finished ∧
          Leaves stack s (visitMixins g.names stack n s)) ∧
    ∀ (way : List String) (n : String) (ms : List String) (s : Cutting),
      ∀ pend stack cuts, way = n :: stack → g.IsLoop pend stack n ms s cuts →
        ∃ cuts', g.IsLoop pend stack n [] (visitEach g.names way n ms s) cuts' ∧
          Leaves stack s (visitEach g.names way n ms s) := by
  apply visitMixins.mutual_induct
  case case1 =>
    intro stack n s hguard ih pend cuts h hbelow hn hfresh hfin hcall
    obtain ⟨cuts', h', hleaves⟩ := ih pend stack cuts rfl (h.enter hbelow hn hfresh hfin hcall)
    rw [visitMixins, dif_pos hguard]
    refine ⟨cuts', h'.leave, List.mem_cons_self .., hleaves.mixins, fun x hx => ?_⟩
    exact List.mem_cons_of_mem n (hleaves.finished x hx)
  case case2 =>
    intro stack n s hguard pend cuts _ _ hn hfresh
    exact absurd ⟨hn, hfresh⟩ hguard
  case case3 =>
    rintro way n s pend stack cuts rfl h
    rw [visitEach]
    exact ⟨cuts, h, .refl stack s⟩
  case case4 =>
    rintro way n s m ms s₁ ihVisit ihRest pend stack cuts rfl h
    -- in each case the loop goes on in a state with the invariant
    suffices hnext : ∃ cuts', g.IsLoop pend stack n ms s₁ cuts' ∧ Leaves stack s s₁ by
      obtain ⟨cuts', h', hleaves⟩ := hnext
      obtain ⟨cuts'', h'', hleaves'⟩ := ihRest pend stack cuts' rfl h'
      rw [visitEach]
      exact ⟨cuts'', h'', hleaves.trans hleaves'⟩
    by_cases hm : m ∈ g.names
    · by_cases hstack : m ∈ n :: stack
      · obtain ⟨k, hcls, hmixin, hway, hsuffix⟩ := h.exists_mixinCut hm hstack
        have heq : s₁ = s.cutBack (n :: stack) n m :=
          (dif_neg (not_not.2 hm)).trans (dif_pos hstack)
        rw [heq]
        exact ⟨_, h.cut hcls hmixin hway hsuffix, h.leaves_cut⟩
      · by_cases hfin : m ∈ s.finished
        · have heq : s₁ = s :=
            (dif_neg (not_not.2 hm)).trans ((dif_neg hstack).trans (dif_pos hfin))
          rw [heq]
          exact ⟨cuts, h.skip (.inr hfin), .refl stack s⟩
        · have heq : s₁ = visitMixins g.names (n :: stack) m s :=
            (dif_neg (not_not.2 hm)).trans ((dif_neg hstack).trans (dif_neg hfin))
          rw [heq]
          have hcall : ∀ p, (n :: stack).head? = some p →
              g.KeptEdge (fun x y => pend x y ∨ x = n ∧ y ∈ ms) (n :: stack) s p m := by
            intro p hp
            obtain rfl : n = p := Option.some.inj hp
            exact h.keptEdge hm
          obtain ⟨cuts', h', hmfin, hleaves⟩ :=
            ihVisit _ cuts h.pass h.pass_below hm hstack hfin hcall
          exact ⟨cuts', h.visited h' hmfin hleaves, hleaves.tail⟩
    · have heq : s₁ = s := dif_pos hm
      rw [heq]
      exact ⟨cuts, h.skip (.inl hm), .refl stack s⟩

/-- Between two visits nothing is on the stack and no edge is still to be looked at. -/
abbrev IsPaused (g : ClassGraph) : Cutting → List (MixinCut g) → Prop :=
  g.IsSearch (fun _ _ => False) []

/-- Classes that are not finished are visited one after the other. -/
lemma isPaused_foldl (ns : List String) (h : g.IsPaused s cuts) (hns : ∀ n ∈ ns, n ∈ g.names) :
    ∃ s' cuts', ns.foldl (fun s n => if n ∈ s.finished then s else visitMixins g.names [] n s) s = s' ∧
      g.IsPaused s' cuts' ∧ (∀ n ∈ ns, n ∈ s'.finished) ∧ ∀ n ∈ s.finished, n ∈ s'.finished := by
  induction ns generalizing s cuts with
  | nil => exact ⟨s, cuts, rfl, h, by simp, fun _ hn => hn⟩
  | cons n ns ih =>
    have hns' : ∀ n ∈ ns, n ∈ g.names := fun m hm => hns m (List.mem_cons_of_mem n hm)
    have hstep : ∃ s₁ cuts₁, (if n ∈ s.finished then s else visitMixins g.names [] n s) = s₁ ∧
        g.IsPaused s₁ cuts₁ ∧ n ∈ s₁.finished ∧ ∀ m ∈ s.finished, m ∈ s₁.finished := by
      by_cases hfin : n ∈ s.finished
      · exact ⟨s, cuts, if_pos hfin, h, hfin, fun _ hm => hm⟩
      · obtain ⟨cuts₁, h₁, hn, hleaves⟩ := (isSearch_visit g).1 [] n s _ cuts h (by simp)
          (hns n (List.mem_cons_self ..)) (by simp) hfin (by simp)
        exact ⟨_, cuts₁, if_neg hfin, h₁, hn, hleaves.finished⟩
    obtain ⟨s₁, cuts₁, heq, h₁, hn, hmono⟩ := hstep
    obtain ⟨s', cuts', heq', h', hall, hmono'⟩ := ih h₁ hns'
    refine ⟨s', cuts', by rw [List.foldl_cons, heq, heq'], h', ?_, fun m hm => hmono' m (hmono m hm)⟩
    intro m hm
    rcases List.mem_cons.1 hm with rfl | hm
    · exact hmono' m hn
    · exact hall m hm

/-- The cuts that the search makes. -/
lemma exists_isPaused (g : ClassGraph) :
    ∃ s cuts, g.cutMixinCycles = (s.graph, s.journal) ∧ g.IsPaused s cuts ∧
      ∀ n ∈ g.names, n ∈ s.finished := by
  have h : g.IsPaused { graph := g } [] := by
    constructor <;> simp [IsForward]
  obtain ⟨s, cuts, heq, hs, hall, -⟩ :=
    isPaused_foldl g.sortedNames h fun n hn => mem_sortedNames.1 hn
  refine ⟨s, cuts, ?_, hs, fun n hn => hall n (mem_sortedNames.2 hn)⟩
  rw [cutMixinCycles, heq]

/-! ### After the search -/

/-- A graph in which every mixin has a lower rank than the class is left as it is. -/
lemma cutMixinCycles_of_rank (rank : String → Nat)
    (h : ∀ n ∈ g.names, ∀ m ∈ g.names, m ∈ g.mixinsOf n → rank m < rank n) :
    g.cutMixinCycles.1 = g := by
  obtain ⟨s, cuts, heq, hs, -⟩ := exists_isPaused g
  have hcuts : cuts = [] := by
    refine List.eq_nil_iff_forall_not_mem.2 fun k hk => ?_
    -- the ranks fall along the way from the mixin to the class, and from the class to the mixin
    have hway := (hs.way k hk).imp fun x y hxy =>
      h x hxy.left y hxy.right (mem_mixinsOf_withoutMixins.1 (hs.graph ▸ hxy.mem)).1
    obtain ⟨way, hcons⟩ := List.head?_eq_some_iff.1 k.head
    have hle : ∀ x ∈ k.way, rank x ≤ rank k.mixin := by
      rw [hcons] at hway ⊢
      exact hway.induction (rank · ≤ rank k.mixin) _ (fun _ _ hxy hx => hxy.le.trans hx)
        fun _ => le_rfl
    exact (h _ k.edge.left _ k.edge.right k.edge.mem).not_ge (hle _ (List.mem_of_getLast? k.last))
  rw [heq, hs.graph, hcuts]
  exact g.withoutMixins_nil

end DocGraph.ClassGraph
