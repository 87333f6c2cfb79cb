import DocGraph.Proofs.Inheritance.Resolution

/-!
# Plain recursion

Without the marks of settling, what a member ends up as is a recursion over its dependencies: it takes
what it lacks from its target as that ends up, or from the first candidate that ends up documented. The
recursion exists if no member depends on itself through others.

Then settling, in whatever order and however often members are asked for, comes to the same: what is
settled is as the recursion has it, and what is reported belongs to the members one by one.
-/

namespace DocGraph

namespace Journal

@[simp] lemma diagnostics_warning (d : Diagnostic) : diagnostics [.warning d] = [d] := rfl

@[simp] lemma diagnostics_docInherited (r r' : MemberRef) : diagnostics [.docInherited r r'] = [] :=
  rfl

end Journal

namespace ClassGraph

variable {g : ClassGraph} {m : Member} {final final' : MemberRef → Option Member}

/-! ### The recursion -/

/-- The source of a member, given what members end up as. -/
def plainSource (g : ClassGraph) (final : MemberRef → Option Member) (m : Member) : Option Member :=
  match m.target? with
  | some t =>
    (g.target? m t).bind fun found => if found.ref = m.ref then none else final found.ref
  | none =>
    ((Inheriting.candidates g m.ref).filterMap final).find? fun src => !src.doc.isEmpty

/-- What a member ends up as, given what members end up as. -/
def plainMember (g : ClassGraph) (final : MemberRef → Option Member) (m : Member) : Member :=
  if m.needsDocs then (g.plainSource final m).elim m m.inherit else m

/-- The problems of a member, given what members end up as. -/
def plainReports (g : ClassGraph) (final : MemberRef → Option Member) (m : Member) :
    List Diagnostic :=
  if m.needsDocs then
    match m.target? with
    | some t =>
      match g.target? m t with
      | none => [m.targetDiagnostic (t.className m) (t.memberName m)]
      | some found => if found.ref = m.ref then [m.selfDiagnostic] else []
    | none =>
      if m.inherits.isSome && (g.plainSource final m).isNone then [m.noSourceDiagnostic] else []
  else []

/-- What the member at a reference ends up as. -/
def finalMember (g : ClassGraph) (hg : g.IsAcyclic) (r : MemberRef) : Option Member :=
  (g.memberAt? r).map
    (g.plainMember fun r' => if _h : g.DependsOn r r' then finalMember g hg r' else none)
termination_by hg.wellFounded.wrap r
decreasing_by exact _h

/-- The problems of the member at a reference. -/
def finalReports (g : ClassGraph) (hg : g.IsAcyclic) (r : MemberRef) : List Diagnostic :=
  (g.memberAt? r).elim [] (g.plainReports (g.finalMember hg))

lemma plainSource_congr (hn : m.needsDocs) (h : ∀ r ∈ g.dependencies m, final r = final' r) :
    g.plainSource final m = g.plainSource final' m := by
  rw [dependencies, if_pos hn] at h
  rw [plainSource, plainSource]
  cases ht : m.target? with
  | some t =>
    simp only [ht] at h
    refine Option.bind_congr fun found hfound => ?_
    split
    · rfl
    · next hne => exact h found.ref (by simpa [hfound] using hne)
  | none =>
    simp only [ht] at h
    rw [List.filterMap_congr h]

/-- A member ends up as it does for the sake of its dependencies only. -/
lemma plainMember_congr (h : ∀ r ∈ g.dependencies m, final r = final' r) :
    g.plainMember final m = g.plainMember final' m := by
  rw [plainMember, plainMember]
  split
  · next hn => rw [plainSource_congr hn h]
  · rfl

lemma finalMember_eq (g : ClassGraph) (hg : g.IsAcyclic) (r : MemberRef) :
    g.finalMember hg r = (g.memberAt? r).map (g.plainMember (g.finalMember hg)) := by
  rw [finalMember]
  refine Option.map_congr fun m hm => plainMember_congr fun r' hr' => ?_
  exact dif_pos ((dependsOn_iff hm).2 hr')

lemma HasMember.finalMember_eq (h : g.HasMember m) (hg : g.IsAcyclic) :
    g.finalMember hg m.ref = some (g.plainMember (g.finalMember hg) m) := by
  rw [ClassGraph.finalMember_eq, h]
  rfl

lemma HasMember.finalReports_eq (h : g.HasMember m) (hg : g.IsAcyclic) :
    g.finalReports hg m.ref = g.plainReports (g.finalMember hg) m := by
  rw [finalReports, h]
  rfl

/-- A graph of a given shape is determined by its members. -/
lemma SameShape.eq_of_memberAt? {a b : ClassGraph} (ha : g.SameShape a) (hb : g.SameShape b)
    (h : ∀ r ∈ g.refs, a.memberAt? r = b.memberAt? r) : a = b := by
  obtain ⟨f, hf, rfl⟩ := ha
  obtain ⟨f', hf', rfl⟩ := hb
  refine g.mapMembers_congr hf hf' fun c hc m hm => ?_
  have hmem := hasMember_of_mem_values hc hm
  have heq := h m.ref hmem.mem_refs
  rw [memberAt?_mapMembers, memberAt?_mapMembers, hmem] at heq
  exact Option.some.inj heq

end ClassGraph

namespace Inheriting

variable {g : ClassGraph} {s s' : Inheriting} {m : Member} {hg : g.IsAcyclic}

/-! ### Settling follows the recursion -/

/-- What is settled is as the recursion has it, and so is what was reported about it. -/
structure IsPlain (g : ClassGraph) (hg : g.IsAcyclic) (s : Inheriting) : Prop where
  final : ∀ r ∈ s.settled, s.graph.memberAt? r = g.finalMember hg r
  reports : s.journal.diagnostics.Perm (s.settled.flatMap (g.finalReports hg))

lemma isPlain_start (g : ClassGraph) (hg : g.IsAcyclic) : IsPlain g hg { graph := g } where
  final := by simp
  reports := .nil

/-- Without cycles, what the member begun last depends on is not begun. -/
lemma Sound.not_mem_active {a r : MemberRef} (hs : Sound g s) (hg : g.IsAcyclic)
    (ha : a ∈ s.active.head?) (hr : g.DependsOn a r) : r ∉ s.active := by
  intro hmem
  obtain ⟨rest, hrest⟩ := List.head?_eq_some_iff.1 ha
  rw [hrest] at hmem
  rcases List.mem_cons.1 hmem with rfl | hmem
  · exact hg r (.single hr)
  · exact hg a (.head hr (hs.transGen_head hrest hmem))

/-- A search without cycles finds the first candidate that ends up documented. -/
lemma Search.eq_find? {rs : List MemberRef} {src : Option Member} (h : Search s rs src)
    (hp : IsPlain g hg s) (ha : ∀ r ∈ rs, r ∉ s.active) :
    (rs.filterMap (g.finalMember hg)).find? (fun src => !src.doc.isEmpty) = src := by
  induction h with
  | nothing => rfl
  | here hr hsrc hdoc =>
    rw [hp.final _ hr] at hsrc
    rw [List.filterMap_cons_some hsrc, List.find?_cons_of_pos (by simpa using hdoc)]
  | later hr _ ih =>
    obtain ⟨hna, hrs⟩ := List.forall_mem_cons.1 ha
    obtain ⟨hset, m, hm, hdoc⟩ := hr.resolve_left hna
    rw [hp.final _ hset] at hm
    rw [List.filterMap_cons_some hm, List.find?_cons_of_neg (by simpa using hdoc)]
    exact ih hrs

/-- What a member's source comes to is what the recursion says. -/
lemma Outcome.eq_plain {rest : List MemberRef} {src : Option Member} {j : Journal}
    (ho : Outcome g s m src j) (hs : Sound g s) (hp : IsPlain g hg s) (hm : g.HasMember m)
    (hn : m.needsDocs) (ha : s.active = m.ref :: rest) :
    g.plainSource (g.finalMember hg) m = src ∧
      g.plainReports (g.finalMember hg) m = j.diagnostics := by
  -- no dependency is begun, so all that were passed over are settled
  have hidle : ∀ r, g.DependsOn m.ref r → r ∉ s.active :=
    fun r hr => hs.not_mem_active hg (by simp [ha]) hr
  cases ho with
  | missing ht h => simp [ClassGraph.plainSource, ClassGraph.plainReports, hn, ht, h]
  | itself ht h he => simp [ClassGraph.plainSource, ClassGraph.plainReports, hn, ht, h, he]
  | target ht h hne hr hsrc =>
    have hset := hr.resolve_right fun href => hidle _ (hm.dependsOn_target hn ht h hne) href.1
    rw [hp.final _ hset] at hsrc
    simp [ClassGraph.plainSource, ClassGraph.plainReports, hn, ht, h, hne, hsrc]
  | found ht h =>
    have hfind := h.eq_find? hp fun r hr => hidle r (hm.dependsOn_candidate hn ht hr)
    simp [ClassGraph.plainSource, ClassGraph.plainReports, hn, ht, hfind]
  | unfound ht h =>
    have hfind := h.eq_find? hp fun r hr => hidle r (hm.dependsOn_candidate hn ht hr)
    cases hi : m.inherits <;> simp [ClassGraph.plainSource, ClassGraph.plainReports, hn, ht, hfind,
      hi]

lemma Move.isPlain (h : Move g s s') (hs : Sound g s) (hp : IsPlain g hg s) : IsPlain g hg s' := by
  have hkept := h.keeps hs
  cases h with
  | @keep m hm hset ha hn =>
    refine ⟨List.forall_mem_cons.2 ⟨?_, hp.final⟩, ?_⟩
    · rw [hm.finalMember_eq, ClassGraph.plainMember, if_neg hn]
      exact hs.unsettled m hm hset
    · have hnone : g.finalReports hg m.ref = [] := by
        rw [hm.finalReports_eq, ClassGraph.plainReports, if_neg hn]
      simpa [settle, hnone] using hp.reports
  | enter hm hset ha hn hc => exact ⟨hp.final, hp.reports⟩
  | @circular m hm ha hc =>
    obtain ⟨a, rest, hcons⟩ := List.exists_cons_of_ne_nil (List.ne_nil_of_mem ha)
    have hhead : s.active.head? = some a := by rw [hcons, List.head?_cons]
    exact absurd ha (hs.not_mem_active hg hhead (hc a hhead).1)
  | @finish m rest src j hm ha ho =>
    have hmem : m.ref ∈ s.active := by simp [ha]
    have hn := hs.needsDocs hm hmem
    obtain ⟨hsrc, hreports⟩ := ho.eq_plain hs hp hm hn ha
    refine ⟨List.forall_mem_cons.2 ⟨?_, fun r hr => ?_⟩, ?_⟩
    · rw [hs.memberAt?_finish hm hmem, hm.finalMember_eq, ClassGraph.plainMember, if_pos hn, hsrc]
    · exact (hkept r hr).2.trans (hp.final r hr)
    · have hmore : g.finalReports hg m.ref = j.diagnostics := by rw [hm.finalReports_eq, hreports]
      simp only [Inheriting.finish, Journal.diagnostics_append, List.flatMap_cons, hmore]
      exact List.perm_append_comm.trans (hp.reports.append_left _)

/-- All members are settled in the end, as the recursion has them. -/
lemma isPlain_foldl_resolveMember (hg : g.IsAcyclic) {rs : List MemberRef}
    (hrs : ∀ r, r ∈ rs ↔ r ∈ g.refs) :
    let s := rs.foldl resolveMember { graph := g }
    g.SameShape s.graph ∧ (∀ r ∈ g.refs, s.graph.memberAt? r = g.finalMember hg r) ∧
      s.journal.diagnostics.Perm (g.refs.flatMap (g.finalReports hg)) := by
  intro s
  have hstart := sound_start g
  obtain ⟨hrun, -, hall⟩ := run_foldl_resolveMember hstart rfl fun r hr => (hrs r).1 hr
  have hs : Sound g s := hrun.sound hstart
  have hp : IsPlain g hg s :=
    hrun.preserves hstart (isPlain_start g hg) fun _ _ hs hp hmove => hmove.isPlain hs hp
  have hsettled : s.settled.Perm g.refs := by
    refine (List.perm_ext_iff_of_nodup hs.settled_nodup g.nodup_refs).2 fun r => ⟨hs.settled_mem r, ?_⟩
    exact fun hr => hall r ((hrs r).2 hr)
  refine ⟨hs.shape, fun r hr => hp.final r (hsettled.mem_iff.2 hr), ?_⟩
  exact hp.reports.trans (hsettled.flatMap_right _)

/-- Settling all members, in any order and however often, comes to the plain recursion. So neither what
members end up as nor which problems are reported depends on the order. -/
theorem foldl_resolveMember_eq_plain_recursion (g : ClassGraph) (hg : g.IsAcyclic)
    {rs : List MemberRef} (hrs : ∀ r, r ∈ rs ↔ r ∈ g.refs) :
    let s := rs.foldl resolveMember { graph := g }
    (∀ r, g.finalMember hg r = (g.memberAt? r).map (g.plainMember (g.finalMember hg))) ∧
      (∀ r ∈ g.refs, s.graph.memberAt? r = g.finalMember hg r) ∧
      s.journal.diagnostics.Perm (g.refs.flatMap (g.finalReports hg)) ∧
      ∀ rs' : List MemberRef, (∀ r, r ∈ rs' ↔ r ∈ g.refs) →
        let s' := rs'.foldl resolveMember { graph := g }
        s'.graph = s.graph ∧ s'.journal.diagnostics.Perm s.journal.diagnostics := by
  obtain ⟨hshape, hfinal, hreports⟩ := isPlain_foldl_resolveMember hg hrs
  refine ⟨g.finalMember_eq hg, hfinal, hreports, fun rs' hrs' => ?_⟩
  obtain ⟨hshape', hfinal', hreports'⟩ := isPlain_foldl_resolveMember hg hrs'
  constructor
  · exact hshape'.eq_of_memberAt? hshape fun r hr => (hfinal' r hr).trans (hfinal r hr).symm
  · exact hreports'.trans hreports.symm

/-- Three members, of which only the first one has documentation. The second one finds it in its parent,
and the third one names the second one as its target. -/
def relay : ClassGraph where
  classes := [
    { name := "Base"
      members := ⟨[(⟨.method, "run"⟩,
        { ref := ⟨"Base", .method, "run"⟩, doc := "Runs." })], by decide⟩
      located := by decide },
    { name := "Task"
      parent := some "Base"
      members := ⟨[(⟨.method, "run"⟩, { ref := ⟨"Task", .method, "run"⟩ })], by decide⟩
      located := by decide },
    { name := "Timer"
      members := ⟨[(⟨.event, "tick"⟩,
        { ref := ⟨"Timer", .event, "tick"⟩
          inherits := some { cls := some "Task", member := some "run", kind := some "method" } })],
        by decide⟩
      located := by decide }]
  distinct := by decide

/-- The last member first, documentation still comes all the way. -/
theorem foldl_resolveMember_relay :
    let s := relay.refs.reverse.foldl resolveMember { graph := relay }
    ∃ hg : relay.IsAcyclic, (∀ r, r ∈ relay.refs.reverse ↔ r ∈ relay.refs) ∧
      (∀ r ∈ relay.refs, s.graph.memberAt? r = relay.finalMember hg r) ∧
      (s.graph.memberAt? ⟨"Timer", .event, "tick"⟩).map Member.doc = some "Runs." := by
  have hg : relay.IsAcyclic :=
    ClassGraph.isAcyclic_of_rank (relay.refs.idxOf ·) (by decide +kernel)
  have hrs : ∀ r, r ∈ relay.refs.reverse ↔ r ∈ relay.refs := fun r => List.mem_reverse
  obtain ⟨-, hfinal, -⟩ := foldl_resolveMember_eq_plain_recursion relay hg hrs
  exact ⟨hg, hrs, hfinal, by decide +kernel⟩

end Inheriting

end DocGraph
