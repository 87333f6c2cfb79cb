import DocGraph.Proofs.Graph.SearchOrder
import DocGraph.Proofs.Inheritance.Shape
import Mathlib.Data.List.Nodup

/-!
# Members and their dependencies

A member that needs documentation depends on the member that its target names, or, if it names no part
of a target, on all members of its key in the classes in which to look for documentation. Dependencies
are read off the graph before anything is inherited.

There are finitely many members, so if no member depends on itself through others, one can recurse from
members to those that they depend on.
-/

namespace DocGraph

/-- The target of a member, if the member names a part of it. -/
def Member.target? (m : Member) : Option DocTarget := m.inherits.filter DocTarget.isExplicit

lemma Member.inherits_isSome {m : Member} {t : DocTarget} (ht : m.target? = some t) :
    m.inherits.isSome := by
  obtain ⟨h, -⟩ := Option.filter_eq_some_iff.1 ht
  simp [h]

namespace ClassGraph

variable {g : ClassGraph} {m found : Member} {r r' : MemberRef} {t : DocTarget}

/-! ### Members -/

/-- A graph has a member at its reference. -/
def HasMember (g : ClassGraph) (m : Member) : Prop := g.memberAt? m.ref = some m

lemma HasMember.unique {m' : Member} (h : g.HasMember m) (h' : g.HasMember m') (hr : m'.ref = m.ref) :
    m' = m := by
  rw [HasMember, hr, h] at h'
  exact (Option.some.inj h').symm

lemma ref_of_member? {c : DocClass} {key : MemberKey} (h : c.member? key = some m) :
    m.ref = ⟨c.name, key⟩ :=
  c.located (key, m) (OrderedMap.mem_entries_of_get? h)

/-- The members of the classes of a graph are those that the graph has. -/
lemma hasMember_of_member? {c : DocClass} {key : MemberKey} (hc : c ∈ g.classes)
    (h : c.member? key = some m) : g.HasMember m := by
  rw [HasMember, memberAt?, member?, ref_of_member? h, find?_name hc]
  exact h

lemma hasMember_of_mem_values {c : DocClass} (hc : c ∈ g.classes) (h : m ∈ c.members.values) :
    g.HasMember m := by
  obtain ⟨⟨key, _⟩, he, rfl⟩ := List.mem_map.1 h
  exact hasMember_of_member? hc (OrderedMap.get?_eq_some_iff.2 he)

/-- What a target names is a member of the graph. -/
lemma hasMember_of_target? (h : g.target? m t = some found) : g.HasMember found := by
  obtain ⟨c, hc, hfound⟩ := Option.bind_eq_some_iff.1 h
  have hkey : ∀ kind : Option MemberKind,
      (kind.bind fun kind => c.member? ⟨kind, t.memberName m⟩) = some found → g.HasMember found := by
    intro kind hkind
    obtain ⟨_, -, hm⟩ := Option.bind_eq_some_iff.1 hkind
    exact hasMember_of_member? (mem_classes_of_find? hc) hm
  rw [DocClass.targeted?] at hfound
  split at hfound
  · rcases Option.or_eq_some_iff.1 hfound with hkind | ⟨-, hname⟩
    · exact hkey _ hkind
    · have hmem : found ∈ c.membersNamed (t.memberName m) := List.mem_of_head? hname
      exact hasMember_of_mem_values (mem_classes_of_find? hc) (List.mem_filter.1 hmem).1
  · exact hkey _ hfound

lemma mem_refs : r ∈ g.refs ↔ ∃ m, g.HasMember m ∧ m.ref = r := by
  rw [refs, List.mem_flatMap]
  constructor
  · rintro ⟨c, hc, hr⟩
    obtain ⟨m, hm, rfl⟩ := List.mem_map.1 hr
    exact ⟨m, hasMember_of_mem_values hc hm, rfl⟩
  · rintro ⟨m, hm, rfl⟩
    obtain ⟨c, hc, hkey⟩ := Option.bind_eq_some_iff.1 hm
    refine ⟨c, mem_classes_of_find? hc, List.mem_map_of_mem ?_⟩
    exact List.mem_map.2 ⟨_, OrderedMap.mem_entries_of_get? hkey, rfl⟩

lemma HasMember.mem_refs (h : g.HasMember m) : m.ref ∈ g.refs := ClassGraph.mem_refs.2 ⟨m, h, rfl⟩

/-- A graph of the same shape has the same members, as far as references go. -/
lemma SameShape.exists_memberAt? {g' : ClassGraph} (h : g.SameShape g') (hr : r ∈ g.refs) :
    ∃ m, g'.memberAt? r = some m ∧ m.ref = r := by
  rw [← h.refs_eq] at hr
  obtain ⟨m, hm, rfl⟩ := ClassGraph.mem_refs.1 hr
  exact ⟨m, hm, rfl⟩

lemma refs_eq_flatMap (g : ClassGraph) :
    g.refs = g.classes.flatMap fun c => c.members.keys.map fun key => ⟨c.name, key⟩ := by
  refine List.flatMap_congr fun c _ => ?_
  rw [OrderedMap.values, OrderedMap.keys, List.map_map, List.map_map]
  exact List.map_congr_left fun e he => c.located e he

/-- No two members have the same reference. -/
lemma nodup_refs (g : ClassGraph) : g.refs.Nodup := by
  rw [refs_eq_flatMap, List.nodup_flatMap]
  constructor
  · intro c _
    exact c.members.distinct.map fun _ _ h => (MemberRef.mk.inj h).2
  · have hnames : g.classes.Pairwise fun c d => c.name ≠ d.name := List.pairwise_map.1 g.distinct
    refine hnames.imp fun {c d} hne => List.disjoint_left.2 fun r hc hd => ?_
    obtain ⟨_, -, rfl⟩ := List.mem_map.1 hc
    obtain ⟨_, -, h⟩ := List.mem_map.1 hd
    exact hne (MemberRef.mk.inj h).1.symm

/-! ### Candidates -/

lemma mem_candidates {n : String} {c : DocClass} {key : MemberKey} (hc : c ∈ g.searchOrder n)
    (h : c.member? key = some m) : m.ref ∈ Inheriting.candidates g ⟨n, key⟩ :=
  List.mem_filterMap.2 ⟨c, hc, by rw [h]; rfl⟩

lemma mem_refs_of_mem_candidates (h : r' ∈ Inheriting.candidates g r) : r' ∈ g.refs := by
  obtain ⟨c, hc, hm⟩ := List.mem_filterMap.1 h
  obtain ⟨m, hkey, rfl⟩ := Option.map_eq_some_iff.1 hm
  exact (hasMember_of_member? (mem_classes_of_mem_searchOrder hc) hkey).mem_refs

/-! ### Dependencies -/

/-- The members on which a member depends. -/
def dependencies (g : ClassGraph) (m : Member) : List MemberRef :=
  if m.needsDocs then
    match m.target? with
    | some t => ((g.target? m t).map Member.ref).toList.filter (· ≠ m.ref)
    | none => Inheriting.candidates g m.ref
  else []

/-- One member depends on another. -/
def DependsOn (g : ClassGraph) (r r' : MemberRef) : Prop :=
  ∃ m ∈ g.memberAt? r, r' ∈ g.dependencies m

instance : DecidableRel g.DependsOn := fun r r' =>
  inferInstanceAs (Decidable (∃ m ∈ g.memberAt? r, r' ∈ g.dependencies m))

/-- No member depends on itself through others. -/
def IsAcyclic (g : ClassGraph) : Prop := ∀ r, ¬Relation.TransGen g.DependsOn r r

lemma dependsOn_iff (h : g.memberAt? r = some m) : g.DependsOn r r' ↔ r' ∈ g.dependencies m := by
  simp [DependsOn, h]

/-- A member names another one as its target. -/
def NamesTarget (g : ClassGraph) (r r' : MemberRef) : Prop :=
  ∃ m ∈ g.memberAt? r, ∃ t ∈ m.target?, (g.target? m t).map Member.ref = some r'

instance : DecidableRel g.NamesTarget := fun r r' =>
  inferInstanceAs (Decidable (∃ m ∈ g.memberAt? r, ∃ t ∈ m.target?,
    (g.target? m t).map Member.ref = some r'))

lemma NamesTarget.mem_refs (h : g.NamesTarget r r') : r' ∈ g.refs := by
  obtain ⟨m, -, t, -, href⟩ := h
  obtain ⟨found, hfound, rfl⟩ := Option.map_eq_some_iff.1 href
  exact (hasMember_of_target? hfound).mem_refs

lemma HasMember.namesTarget (h : g.HasMember m) (ht : m.target? = some t)
    (hfound : g.target? m t = some found) : g.NamesTarget m.ref found.ref :=
  ⟨m, h, t, ht, by rw [hfound, Option.map_some]⟩

lemma HasMember.dependsOn_target (h : g.HasMember m) (hn : m.needsDocs) (ht : m.target? = some t)
    (hfound : g.target? m t = some found) (hne : found.ref ≠ m.ref) : g.DependsOn m.ref found.ref := by
  rw [dependsOn_iff h, dependencies, if_pos hn, ht]
  simp [hfound, hne]

lemma HasMember.dependsOn_candidate (h : g.HasMember m) (hn : m.needsDocs) (ht : m.target? = none)
    (hr : r' ∈ Inheriting.candidates g m.ref) : g.DependsOn m.ref r' := by
  rw [dependsOn_iff h, dependencies, if_pos hn, ht]
  exact hr

lemma DependsOn.mem_refs (h : g.DependsOn r r') : r' ∈ g.refs := by
  obtain ⟨m, -, hd⟩ := h
  rw [dependencies] at hd
  split at hd
  · split at hd
    · obtain ⟨hd, -⟩ := List.mem_filter.1 hd
      rw [Option.mem_toList] at hd
      obtain ⟨found, hfound, rfl⟩ := Option.map_eq_some_iff.1 hd
      exact (hasMember_of_target? hfound).mem_refs
    · exact mem_refs_of_mem_candidates hd
  · simp at hd

/-- The members that can be reached from a member get fewer with every step. -/
theorem IsAcyclic.wellFounded (h : g.IsAcyclic) : WellFounded fun r' r => g.DependsOn r r' := by
  classical
  let reached (r : MemberRef) := g.refs.filter fun x => Relation.TransGen g.DependsOn r x
  refine Subrelation.wf (r := fun r' r => (reached r').length < (reached r).length) ?_
    (measure fun r => (reached r).length).wf
  intro r' r hd
  have hsub : reached r' = (reached r).filter fun x => Relation.TransGen g.DependsOn r' x := by
    rw [List.filter_filter]
    refine List.filter_congr fun x _ => ?_
    by_cases hx : Relation.TransGen g.DependsOn r' x
    · simp [hx, Relation.TransGen.head hd hx]
    · simp [hx]
  rw [hsub]
  refine List.length_filter_lt_length_iff_exists.2 ⟨r', ?_, by simpa using h r'⟩
  exact List.mem_filter.2 ⟨hd.mem_refs, by simpa using .single hd⟩

/-- A number that gets smaller from members to those that they are related to excludes cycles. -/
lemma not_transGen_of_rank {rel : MemberRef → MemberRef → Prop} (rank : MemberRef → Nat)
    (hmem : ∀ r r', rel r r' → r' ∈ g.refs)
    (h : ∀ r ∈ g.refs, ∀ r' ∈ g.refs, rel r r' → rank r' < rank r) (r : MemberRef) :
    ¬Relation.TransGen rel r r := by
  have hlt : ∀ r r', r ∈ g.refs → Relation.TransGen rel r r' → r' ∈ g.refs ∧ rank r' < rank r := by
    intro r r' hr hd
    induction hd with
    | single hd => exact ⟨hmem _ _ hd, h r hr _ (hmem _ _ hd) hd⟩
    | tail _ hd ih => exact ⟨hmem _ _ hd, (h _ ih.1 _ (hmem _ _ hd) hd).trans ih.2⟩
  intro hr
  obtain ⟨_, _, hd⟩ := Relation.TransGen.tail'_iff.1 hr
  exact (hlt r r (hmem _ _ hd) hr).2.false

theorem isAcyclic_of_rank (rank : MemberRef → Nat)
    (h : ∀ r ∈ g.refs, ∀ m ∈ g.memberAt? r, ∀ r' ∈ g.dependencies m, rank r' < rank r) :
    g.IsAcyclic :=
  not_transGen_of_rank rank (fun _ _ hd => hd.mem_refs) fun r hr r' _ ⟨m, hm, hd⟩ =>
    h r hr m hm r' hd

end ClassGraph

end DocGraph
