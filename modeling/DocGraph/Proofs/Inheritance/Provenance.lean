import DocGraph.Proofs.Inheritance.Target

/-!
# True origins

A member whose gaps were filled names the member that they were filled from. Unless a cycle was reported,
that one was settled before, so it still is what it was when it was copied from, and following origins
leads to members that were settled earlier and earlier.

The run notes each origin when it sets it. Main statement: what it notes is true, other members are as
they were, and origins come to an end.
-/

namespace DocGraph

namespace ClassGraph

variable {g : ClassGraph} {m : Member} {r r' : MemberRef}

/-! ### Origins -/

/-- Inheriting sets the origin of a member. -/
def SetsOrigin (g : ClassGraph) (r r' : MemberRef) : Prop := .docInherited r r' ∈ g.inheritDocs.2

/-- One member is another one with its gaps filled from a source. -/
structure IsFilledFrom (m' m src : Member) : Prop where
  origin : m'.inheritedFrom = some src.ref
  doc : m'.doc = if m.doc = "" then src.doc else m.doc
  params : m'.params = if m.params = [] then src.params else m.params
  returns : m'.returns = if m.returns = none then src.returns else m.returns
  type : m'.type = if m.type = "" then src.type else m.type

lemma isFilledFrom_inherit (m src : Member) : IsFilledFrom (m.inherit src) m src where
  origin := rfl
  doc := by simp [Member.inherit]
  params := by simp [Member.inherit]
  returns := by cases h : m.returns <;> simp [Member.inherit, h]
  type := by simp [Member.inherit]

/-- A reference is that of another member of the graph, and a member ends up with its gaps filled from what
that one ends up as. If it has no target, the other one is a documented member of its key in a class in
which to look for it. -/
structure IsTrueOrigin (g : ClassGraph) (m : Member) (r : MemberRef) : Prop where
  mem : r ∈ g.refs
  ne : r ≠ m.ref
  filled : ∃ m' src, g.inheritDocs.1.memberAt? m.ref = some m' ∧
    g.inheritDocs.1.memberAt? r = some src ∧ IsFilledFrom m' m src ∧
    (m.target? = none →
      (∃ c ∈ g.searchOrder m.owner, c.name = r.cls) ∧ r.key = m.ref.key ∧ src.doc ≠ "")

lemma exists_of_mem_candidates (h : r' ∈ Inheriting.candidates g r) :
    ∃ c ∈ g.searchOrder r.cls, r' = ⟨c.name, r.key⟩ := by
  obtain ⟨c, hc, hm⟩ := List.mem_filterMap.1 h
  obtain ⟨m, hkey, rfl⟩ := Option.map_eq_some_iff.1 hm
  exact ⟨c, hc, ref_of_member? hkey⟩

lemma HasMember.mem_candidates_of_dependsOn (h : g.HasMember m) (ht : m.target? = none)
    (hd : g.DependsOn m.ref r) : r ∈ Inheriting.candidates g m.ref := by
  rw [dependsOn_iff h, dependencies, ht] at hd
  split at hd
  · exact hd
  · simp at hd

end ClassGraph

namespace Inheriting

variable {g : ClassGraph} {s s' : Inheriting} {m src : Member} {j : Journal} {r r' : MemberRef}

/-! ### What was taken over -/

/-- A member has its gaps filled from one that was settled before it. -/
structure TookOver (g : ClassGraph) (s : Inheriting) (m src : Member) : Prop where
  member : s.graph.memberAt? m.ref = some (m.inherit src)
  source : s.graph.memberAt? src.ref = some src
  dependsOn : g.DependsOn m.ref src.ref
  documented : m.target? = none → src.doc ≠ ""
  /-- The last one settled comes first. -/
  before : [m.ref, src.ref].Sublist s.settled

/-- What the run has noted about origins is so. A settled member without an origin is as it was. -/
structure IsNoted (g : ClassGraph) (s : Inheriting) : Prop where
  filled : ∀ r r', .docInherited r r' ∈ s.journal →
    ∃ m src, g.HasMember m ∧ m.ref = r ∧ src.ref = r' ∧ TookOver g s m src
  kept : ∀ m, g.HasMember m → m.ref ∈ s.settled → (∀ r, .docInherited m.ref r ∉ s.journal) →
    s.graph.memberAt? m.ref = some m

/-- No cycle was reported. -/
def Quiet (s : Inheriting) : Prop := ∀ d ∈ s.journal.diagnostics, d.kind ≠ .structuralCycle

lemma Move.quiet (h : Move g s s') (hq : Quiet s') : Quiet s := by
  intro d hd
  exact hq d (Journal.mem_diagnostics.2 (h.mem_journal (Journal.mem_diagnostics.1 hd)))

lemma Move.settled_sublist (h : Move g s s') : s.settled.Sublist s'.settled := by
  cases h with
  | keep => exact List.sublist_cons_self _ _
  | enter => exact .refl _
  | circular => exact .refl _
  | finish => exact List.sublist_cons_self _ _

/-- What was taken over does not change, since both members are settled. -/
lemma TookOver.move (h : TookOver g s m src) (hs : Sound g s) (hmove : Move g s s') :
    TookOver g s' m src where
  member := by
    have hset : m.ref ∈ s.settled := h.before.subset (by simp)
    rw [(hmove.keeps hs _ hset).2, h.member]
  source := by
    have hset : src.ref ∈ s.settled := h.before.subset (by simp)
    rw [(hmove.keeps hs _ hset).2, h.source]
  dependsOn := h.dependsOn
  documented := h.documented
  before := h.before.trans hmove.settled_sublist

lemma Outcome.docInherited_mem_iff {src : Option Member} (ho : Outcome g s m src j) :
    .docInherited r r' ∈ j ↔ r = m.ref ∧ src.map Member.ref = some r' := by
  cases ho with
  | missing => simp
  | itself => simp
  | target => simp [eq_comm]
  | found => simp [eq_comm]
  | unfound => split <;> simp

/-- A member that is finished with a source takes over from one that is settled. -/
lemma Outcome.tookOver {rest : List MemberRef} (ho : Outcome g s m (some src) j) (hs : Sound g s)
    (hm : g.HasMember m) (ha : s.active = m.ref :: rest) (hq : Quiet (s.finish m (some src) j)) :
    TookOver g (s.finish m (some src) j) m src := by
  have hmem : m.ref ∈ s.active := by simp [ha]
  have hn := hs.needsDocs hm hmem
  obtain ⟨hd, horigin⟩ := ho.isOrigin hs hm hn
  obtain ⟨hset, hsrc⟩ := horigin.resolve_right <| by
    rintro ⟨m', -, -, hwarn⟩
    have hmove : Move g s (s.finish m (some src) j) := .finish hm ha ho
    exact hmove.quiet hq _ (Journal.mem_diagnostics.2 hwarn) rfl
  have hne : src.ref ≠ m.ref := fun h => hs.active_unsettled _ hmem (h ▸ hset)
  refine ⟨hs.memberAt?_finish hm hmem, ?_, hd, ?_, ?_⟩
  · rw [hs.memberAt?_finish_of_ne hd.mem_refs hne, hsrc]
  · intro ht
    cases ho with
    | target ht' => simp [ht] at ht'
    | found _ h => simpa using h.documented
  · exact List.cons_sublist_cons.2 (List.singleton_sublist.2 hset)

lemma Move.isNoted (h : Move g s s') (hs : Sound g s) (hn : Quiet s → IsNoted g s)
    (hq : Quiet s') : IsNoted g s' := by
  have hmove := h
  obtain ⟨hfilled, hkept⟩ := hn (h.quiet hq)
  -- what was noted before, and the members that were settled before
  have hfilled' : ∀ r r', .docInherited r r' ∈ s.journal →
      ∃ m src, g.HasMember m ∧ m.ref = r ∧ src.ref = r' ∧ TookOver g s' m src := by
    intro r r' hr
    obtain ⟨m, src, hm, hmr, hsrc, htook⟩ := hfilled r r' hr
    exact ⟨m, src, hm, hmr, hsrc, htook.move hs hmove⟩
  have hkept' : ∀ m, g.HasMember m → m.ref ∈ s.settled →
      (∀ r, .docInherited m.ref r ∉ s'.journal) → s'.graph.memberAt? m.ref = some m := by
    intro m hm hset hnot
    rw [(hmove.keeps hs _ hset).2]
    exact hkept m hm hset fun r hr => hnot r (hmove.mem_journal hr)
  cases h with
  | @keep m hm hset ha hn =>
    refine ⟨hfilled', fun m' hm' hset' hnot => ?_⟩
    rcases List.mem_cons.1 hset' with hr | hset'
    · obtain rfl := hm.unique hm' hr
      exact hs.unsettled m' hm' hset
    · exact hkept' m' hm' hset' hnot
  | enter => exact ⟨hfilled', hkept'⟩
  | circular => exact ⟨fun r r' hr => hfilled' r r' (by simpa [report] using hr), hkept'⟩
  | @finish m rest src j hm ha ho =>
    constructor
    · intro r r' hr
      rcases List.mem_append.1 hr with hr | hr
      · exact hfilled' r r' hr
      · obtain ⟨rfl, hsrc⟩ := ho.docInherited_mem_iff.1 hr
        obtain ⟨src, rfl, rfl⟩ := Option.map_eq_some_iff.1 hsrc
        exact ⟨m, src, hm, rfl, rfl, ho.tookOver hs hm ha hq⟩
    · intro m' hm' hset' hnot
      rcases List.mem_cons.1 hset' with hr | hset'
      · obtain rfl := hm.unique hm' hr
        cases src with
        | none => exact hs.memberAt?_finish hm' (by simp [ha])
        | some src =>
          have hnoted : .docInherited m'.ref src.ref ∈ j := ho.docInherited_mem_iff.2 ⟨rfl, rfl⟩
          exact absurd (List.mem_append_right _ hnoted) (hnot src.ref)
      · exact hkept' m' hm' hset' hnot

lemma isNoted_settleAll (hq : Quiet (settleAll g)) : IsNoted g (settleAll g) := by
  have hstart : Quiet { graph := g } → IsNoted g { graph := g } := fun _ => ⟨by simp, by simp⟩
  exact (run_settleAll g).preserves (P := fun s => Quiet s → IsNoted g s) (sound_start g) hstart
    (fun _ _ hs hn h => h.isNoted hs hn) hq

end Inheriting

namespace ClassGraph

open Inheriting

variable {g : ClassGraph} {m : Member} {r r' : MemberRef}

/-! ### Following origins -/

lemma idxOf_lt_of_pair_sublist {l : List MemberRef} (hl : l.Nodup) (h : [r, r'].Sublist l) :
    l.idxOf r < l.idxOf r' := by
  have hrising : l.Pairwise fun a b => l.idxOf a < l.idxOf b := by
    rw [List.pairwise_iff_getElem]
    intro i j hi hj hij
    rwa [hl.idxOf_getElem i hi, hl.idxOf_getElem j hj]
  exact List.pairwise_iff_forall_sublist.1 hrising h

/-- One cannot go further and further to the end of a list. -/
lemma wellFounded_pair_sublist {l : List MemberRef} (hl : l.Nodup) :
    WellFounded fun r' r => [r, r'].Sublist l := by
  refine Subrelation.wf (r := fun r' r => l.length - l.idxOf r' < l.length - l.idxOf r) ?_
    (measure fun r => l.length - l.idxOf r).wf
  intro r' r h
  have hlt := idxOf_lt_of_pair_sublist hl h
  have hr' : l.idxOf r' < l.length := List.idxOf_lt_length_of_mem (h.subset (by simp))
  omega

lemma SetsOrigin.exists_tookOver (h : g.SetsOrigin r r') (hq : Quiet (settleAll g)) :
    ∃ m src, g.HasMember m ∧ m.ref = r ∧ src.ref = r' ∧ TookOver g (settleAll g) m src :=
  (isNoted_settleAll hq).filled r r' h

lemma SetsOrigin.isTrueOrigin (h : g.SetsOrigin m.ref r) (hm : g.HasMember m)
    (hq : Quiet (settleAll g)) : g.IsTrueOrigin m r := by
  obtain ⟨m', src, hm', href, rfl, htook⟩ := h.exists_tookOver hq
  obtain rfl := hm.unique hm' href
  have hs : Sound g (settleAll g) := (run_settleAll g).sound (sound_start g)
  have hnodup : [m'.ref, src.ref].Nodup := hs.settled_nodup.sublist htook.before
  refine ⟨htook.dependsOn.mem_refs, ?_, ?_⟩
  · intro h
    simp [h] at hnodup
  · refine ⟨_, src, htook.member, htook.source, isFilledFrom_inherit m' src, ?_⟩
    intro ht
    obtain ⟨c, hc, hr⟩ := exists_of_mem_candidates (hm'.mem_candidates_of_dependsOn ht htook.dependsOn)
    exact ⟨⟨c, hc, by rw [hr]⟩, by rw [hr], htook.documented ht⟩

lemma HasMember.inheritDocs_of_not_setsOrigin (hm : g.HasMember m) (h : ∀ r, ¬g.SetsOrigin m.ref r)
    (hq : Quiet (settleAll g)) : g.inheritDocs.1.HasMember m := by
  obtain ⟨-, -, hall⟩ := run_foldl_resolveMember (sound_start g) rfl fun r (hr : r ∈ g.refs) => hr
  exact (isNoted_settleAll hq).kept m hm (hall _ hm.mem_refs) h

lemma wellFounded_setsOrigin (hq : Quiet (settleAll g)) :
    WellFounded fun r' r => g.SetsOrigin r r' := by
  have hs : Sound g (settleAll g) := (run_settleAll g).sound (sound_start g)
  refine Subrelation.wf ?_ (wellFounded_pair_sublist hs.settled_nodup)
  intro r' r h
  obtain ⟨m, src, -, rfl, rfl, htook⟩ := h.exists_tookOver hq
  exact htook.before

/-- A member of the graph names an origin. -/
def NamesOrigin (g : ClassGraph) (r r' : MemberRef) : Prop :=
  ∃ m, g.HasMember m ∧ m.ref = r ∧ m.inheritedFrom = some r'

/-- If there were no origins before, those that members name have been set. -/
lemma NamesOrigin.setsOrigin (h : g.inheritDocs.1.NamesOrigin r r') (hq : Quiet (settleAll g))
    (hnone : ∀ m, g.HasMember m → m.inheritedFrom = none) : g.SetsOrigin r r' := by
  obtain ⟨m', hm', rfl, horigin⟩ := h
  obtain ⟨m, hm, href, -⟩ := exists_of_hasMember_inheritDocs hm'
  by_cases hset : ∃ r, g.SetsOrigin m.ref r
  · obtain ⟨r, hr⟩ := hset
    obtain ⟨m₀, src, hm₀, href₀, rfl, htook⟩ := hr.exists_tookOver hq
    have hfilled : m' = m₀.inherit src := by
      rw [ClassGraph.HasMember, ← href, ← href₀] at hm'
      exact Option.some.inj (hm'.symm.trans htook.member)
    obtain rfl : src.ref = r' := by simpa [hfilled, Member.inherit] using horigin
    exact href ▸ hr
  · have hkept := hm.inheritDocs_of_not_setsOrigin (not_exists.1 hset) hq
    obtain rfl := hkept.unique hm' href.symm
    simp [hnone m' hm] at horigin

/-- Unless a cycle is reported, every origin that inheriting sets is true, members without one are as they
were, and following origins ends. -/
theorem inheritDocs_origins_true
    (hj : ∀ d ∈ g.inheritDocs.2.diagnostics, d.kind ≠ .structuralCycle) :
    (∀ m, g.HasMember m → ∀ r, g.SetsOrigin m.ref r → g.IsTrueOrigin m r) ∧
      (∀ m, g.HasMember m → (∀ r, ¬g.SetsOrigin m.ref r) → g.inheritDocs.1.HasMember m) ∧
      (WellFounded fun r' r => g.SetsOrigin r r') ∧
      ((∀ m, g.HasMember m → m.inheritedFrom = none) →
        WellFounded fun r' r => g.inheritDocs.1.NamesOrigin r r') := by
  refine ⟨?_, ?_, ?_, ?_⟩
  · intro m hm r h
    exact h.isTrueOrigin hm hj
  · intro m hm h
    exact hm.inheritDocs_of_not_setsOrigin h hj
  · exact wellFounded_setsOrigin hj
  · intro hnone
    exact Subrelation.wf (fun h => h.setsOrigin hj hnone) (wellFounded_setsOrigin hj)

/-- In a panel whose searches come back to it the layout is described by that of a style, and a button
takes it over from there. -/
theorem inheritDocs_origins_true_namedLoop :
    (∀ d ∈ namedLoop.inheritDocs.2.diagnostics, d.kind ≠ .structuralCycle) ∧
      namedLoop.SetsOrigin ⟨"Button", .method, "paint"⟩ ⟨"Panel", .method, "layout"⟩ ∧
      namedLoop.SetsOrigin ⟨"Panel", .method, "layout"⟩ ⟨"Style", .method, "layout"⟩ ∧
      WellFounded fun r' r => namedLoop.inheritDocs.1.NamesOrigin r r' := by
  have hj : namedLoop.inheritDocs.2 =
      [.docInherited ⟨"Panel", .method, "layout"⟩ ⟨"Style", .method, "layout"⟩,
        .docInherited ⟨"Button", .method, "paint"⟩ ⟨"Panel", .method, "layout"⟩] := by decide +kernel
  have hquiet : ∀ d ∈ namedLoop.inheritDocs.2.diagnostics, d.kind ≠ .structuralCycle := by
    rw [hj]
    exact List.forall_mem_nil _
  have hnone : ∀ r ∈ namedLoop.refs, ∀ m ∈ namedLoop.memberAt? r, m.inheritedFrom = none := by
    decide +kernel
  obtain ⟨-, -, -, hends⟩ := inheritDocs_origins_true hquiet
  refine ⟨hquiet, ?_, ?_, hends fun m hm => hnone m.ref hm.mem_refs m hm⟩
  · simp [SetsOrigin, hj]
  · simp [SetsOrigin, hj]

end ClassGraph

end DocGraph
