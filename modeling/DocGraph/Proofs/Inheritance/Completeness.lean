import DocGraph.Proofs.Inheritance.Resolution

/-!
# Members left without documentation

A search passes over candidates that are being settled, and its result is final. So a member may stay
without documentation although one of its candidates ends up with it, if parents and mixins together
lead back to a class. This happens only to a candidate for which the member was asked in the first
place: the two depend on each other.
-/

namespace DocGraph

namespace ClassGraph

/-- No member without documentation has a documented candidate, unless it asks for documentation in its
own way. -/
def IsComplete (g : ClassGraph) : Prop :=
  ∀ m, g.HasMember m → m.inherits = none → m.doc.isEmpty →
    ∀ c ∈ g.searchOrder m.owner, ∀ m', c.member? m.ref.key = some m' → m'.doc.isEmpty

end ClassGraph

namespace Inheriting

variable {g : ClassGraph} {s s' : Inheriting} {m : Member} {r c : MemberRef}

/-! ### Candidates passed over -/

/-- A candidate that a search passed over has no documentation for good, or waited for the search. -/
def LeftOut (g : ClassGraph) (s : Inheriting) (r c : MemberRef) : Prop :=
  (c ∈ s.settled ∧ ∃ m, s.graph.memberAt? c = some m ∧ m.doc.isEmpty) ∨
    g.DependsOn r c ∧ Relation.TransGen g.DependsOn c r

lemma LeftOut.keep (h : LeftOut g s r c) (hk : Keeps s s') : LeftOut g s' r c := by
  rcases h with ⟨hset, m, hm, hdoc⟩ | hloop
  · exact .inl ⟨(hk c hset).1, m, (hk c hset).2.trans hm, hdoc⟩
  · exact .inr hloop

/-- A member that is settled without documentation has left out all candidates. -/
def IsSearched (g : ClassGraph) (s : Inheriting) : Prop :=
  ∀ r ∈ s.settled, ∀ m, s.graph.memberAt? r = some m → m.inherits = none → m.doc.isEmpty →
    ∀ c ∈ candidates g r, LeftOut g s r c

lemma Search.passed {rs : List MemberRef} (h : Search s rs none) : ∀ c ∈ rs, Passed s c := by
  induction rs with
  | nil => simp
  | cons r rs ih =>
    cases h with
    | later hr h => exact List.forall_mem_cons.2 ⟨hr, ih h⟩

/-- What is left out by the search of the member begun last. -/
lemma Passed.leftOut {rest : List MemberRef} (h : Passed s c) (hs : Sound g s)
    (ha : s.active = m.ref :: rest) (hd : g.DependsOn m.ref c) : LeftOut g s m.ref c := by
  rcases h with hact | hdocless
  · refine .inr ⟨hd, ?_⟩
    rw [ha] at hact
    -- everything that is begun depends on what was begun after it
    rcases List.mem_cons.1 hact with rfl | hact
    · exact .single hd
    · exact hs.transGen_head ha hact
  · exact .inl hdocless

lemma Outcome.leftOut {rest : List MemberRef} {src : Option Member} {j : Journal}
    (ho : Outcome g s m src j) (hs : Sound g s) (hm : g.HasMember m) (ha : s.active = m.ref :: rest)
    (hi : m.inherits = none) (hdoc : (src.elim m m.inherit).doc.isEmpty) :
    ∀ c ∈ candidates g m.ref, LeftOut g s m.ref c := by
  have hn := hs.needsDocs hm (by simp [ha])
  have htarget : m.target? = none := by simp [Member.target?, hi]
  cases ho with
  | missing ht _ => simp [htarget] at ht
  | itself ht _ _ => simp [htarget] at ht
  | target ht _ _ _ _ => simp [htarget] at ht
  | found _ h =>
    have hsrc := h.documented
    simp only [Option.elim_some, Member.inherit] at hdoc
    split at hdoc
    · exact absurd hdoc hsrc
    · next hown => exact absurd hdoc hown
  | unfound ht h =>
    exact fun c hc => (h.passed c hc).leftOut hs ha (hm.dependsOn_candidate hn ht hc)

lemma Move.isSearched (h : Move g s s') (hs : Sound g s) (hl : IsSearched g s) :
    IsSearched g s' := by
  have hkept := h.keeps hs
  have hold : ∀ r ∈ s.settled, ∀ m, s'.graph.memberAt? r = some m → m.inherits = none →
      m.doc.isEmpty → ∀ c ∈ candidates g r, LeftOut g s' r c := by
    intro r hr m hm hi hdoc c hc
    rw [(hkept r hr).2] at hm
    exact (hl r hr m hm hi hdoc c hc).keep hkept
  cases h with
  | @keep m hm hset ha hn =>
    refine List.forall_mem_cons.2 ⟨fun m' hm' hi hdoc => ?_, hold⟩
    have hnow := (hs.unsettled m hm hset).symm.trans hm'
    cases hnow
    simp [Member.needsDocs, hi, hdoc] at hn
  | enter hm hset ha hn hc => exact hold
  | circular hm ha hc => exact hold
  | @finish m rest src j hm ha ho =>
    refine List.forall_mem_cons.2 ⟨fun m' hm' hi hdoc c hc => ?_, hold⟩
    rw [hs.memberAt?_finish hm (by simp [ha])] at hm'
    cases hm'
    have hi' : m.inherits = none := by cases src <;> exact hi
    exact (ho.leftOut hs hm ha hi' hdoc c hc).keep hkept

end Inheriting

namespace ClassGraph

open Inheriting

variable {g : ClassGraph} {m m' : Member} {c : DocClass}

/-- If a member stays without documentation next to a documented candidate, they depend on each other. -/
lemma exists_loop_of_left (hm : g.inheritDocs.1.HasMember m) (hi : m.inherits = none)
    (hdoc : m.doc.isEmpty) (hc : c ∈ g.inheritDocs.1.searchOrder m.owner)
    (hm' : c.member? m.ref.key = some m') (hdoc' : ¬m'.doc.isEmpty) :
    g.DependsOn m.ref m'.ref ∧ Relation.TransGen g.DependsOn m'.ref m.ref := by
  have hstart := sound_start g
  obtain ⟨hrun, -, hall⟩ := run_foldl_resolveMember hstart rfl fun r (hr : r ∈ g.refs) => hr
  have hs := hrun.sound hstart
  have hsearched : IsSearched g _ :=
    hrun.preserves hstart (by simp [IsSearched]) fun _ _ hs hl hmove => hmove.isSearched hs hl
  have hset := hall m.ref (hs.shape.refs_eq ▸ hm.mem_refs)
  have hcand : m'.ref ∈ candidates g m.ref := by
    rw [← hs.shape.candidates_eq]
    exact mem_candidates hc hm'
  rcases hsearched m.ref hset m hm hi hdoc m'.ref hcand with ⟨-, m'', hm'', hempty⟩ | hloop
  · have hmem' := hasMember_of_member? (mem_classes_of_mem_searchOrder hc) hm'
    cases hmem'.symm.trans hm''
    exact absurd hempty hdoc'
  · exact hloop

/-- Without cycles nothing is left behind. -/
theorem IsAcyclic.isComplete_inheritDocs (hg : g.IsAcyclic) : g.inheritDocs.1.IsComplete := by
  intro m hm hi hdoc c hc m' hm'
  by_contra hdoc'
  obtain ⟨hd, hback⟩ := exists_loop_of_left hm hi hdoc hc hm' hdoc'
  exact hg m.ref (.head hd hback)

/-- After the cycles of parents and those of mixins are cut, a member can stay without documentation only
next to candidates that need documentation themselves and come back to it for it. -/
theorem inheritDocs_leaves_only_loops (g : ClassGraph)
    (hm : g.cutCycles.1.inheritDocs.1.HasMember m) (hi : m.inherits = none) (hdoc : m.doc.isEmpty)
    (hc : c ∈ g.cutCycles.1.inheritDocs.1.searchOrder m.owner)
    (hm' : c.member? m.ref.key = some m') (hdoc' : ¬m'.doc.isEmpty) :
    g.cutCycles.1.DependsOn m.ref m'.ref ∧
      Relation.TransGen g.cutCycles.1.DependsOn m'.ref m.ref :=
  exists_loop_of_left hm hi hdoc hc hm' hdoc'

/-- The parent of a class has the class as a mixin. Only another mixin of the class has documentation. -/
def mixedLoop : ClassGraph where
  classes := [
    { name := "Panel"
      parent := some "Window"
      mixins := ["Style"]
      members := ⟨[(⟨.method, "draw"⟩, { ref := ⟨"Panel", .method, "draw"⟩ })], by decide⟩
      located := by decide },
    { name := "Window"
      mixins := ["Panel"]
      members := ⟨[(⟨.method, "draw"⟩, { ref := ⟨"Window", .method, "draw"⟩ })], by decide⟩
      located := by decide },
    { name := "Style"
      members := ⟨[(⟨.method, "draw"⟩,
        { ref := ⟨"Style", .method, "draw"⟩, doc := "Draws." })], by decide⟩
      located := by decide }]
  distinct := by decide

/-- Neither the parents nor the mixins alone lead back to a class. -/
lemma cutCycles_mixedLoop : mixedLoop.cutCycles.1 = mixedLoop :=
  cutCycles_of_ranks (fun n => if n = "Panel" then 1 else 0)
    (fun n => if n = "Window" then 2 else if n = "Panel" then 1 else 0) (by decide) (by decide)

/-- The parent is searched while the class is being settled, and stays without documentation. -/
lemma exists_documented_mixedLoop :
    ∃ m c m', mixedLoop.cutCycles.1.inheritDocs.1.HasMember m ∧ m.inherits = none ∧ m.doc.isEmpty ∧
      c ∈ mixedLoop.cutCycles.1.inheritDocs.1.searchOrder m.owner ∧
      c.member? m.ref.key = some m' ∧ ¬m'.doc.isEmpty := by
  rw [cutCycles_mixedLoop]
  have hdraw : (mixedLoop.inheritDocs.1.memberAt? ⟨"Window", .method, "draw"⟩).map
      (fun m => (m.ref, m.inherits, m.doc)) = some (⟨"Window", .method, "draw"⟩, none, "") := by
    decide +kernel
  obtain ⟨m, hm, hfields⟩ := Option.map_eq_some_iff.1 hdraw
  obtain ⟨href, hi, hdoc⟩ : m.ref = _ ∧ m.inherits = none ∧ m.doc = "" := by simpa using hfields
  have hany : (mixedLoop.inheritDocs.1.searchOrder "Window").any (fun c =>
      (c.member? ⟨.method, "draw"⟩).any fun m' => !m'.doc.isEmpty) = true := by decide +kernel
  obtain ⟨c, hc, hm'⟩ := List.any_eq_true.1 hany
  obtain ⟨m', hm', hdoc'⟩ := (Option.any_eq_true _ _).1 hm'
  exact ⟨m, c, m', by rwa [HasMember, href], hi, by simp [hdoc], by rwa [Member.owner, href],
    by rwa [href], by simpa using hdoc'⟩

theorem not_isComplete_mixedLoop : ¬∀ g : ClassGraph, g.cutCycles.1.inheritDocs.1.IsComplete := by
  intro h
  obtain ⟨m, c, m', hm, hi, hdoc, hc, hm', hdoc'⟩ := exists_documented_mixedLoop
  exact hdoc' (h mixedLoop m hm hi hdoc c hc m' hm')

theorem inheritDocs_mixedLoop :
    ∃ m c m', mixedLoop.cutCycles.1.inheritDocs.1.HasMember m ∧ m.inherits = none ∧
      m.doc.isEmpty ∧ c ∈ mixedLoop.cutCycles.1.inheritDocs.1.searchOrder m.owner ∧
      c.member? m.ref.key = some m' ∧ ¬m'.doc.isEmpty ∧
      Relation.TransGen mixedLoop.cutCycles.1.DependsOn m'.ref m.ref := by
  obtain ⟨m, c, m', hm, hi, hdoc, hc, hm', hdoc'⟩ := exists_documented_mixedLoop
  have hloop := inheritDocs_leaves_only_loops mixedLoop hm hi hdoc hc hm' hdoc'
  exact ⟨m, c, m', hm, hi, hdoc, hc, hm', hdoc', hloop.2⟩

end ClassGraph

end DocGraph
