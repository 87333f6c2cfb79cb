import DocGraph.Proofs.Inheritance.Settling

/-!
# Resolving is a run

A call of `resolve` that is deep enough goes from move to move, leaves the members begun as it found
them, and settles the member it is called for, unless that one is begun. It is deep enough if its depth
and the number of members begun exceed the number of members: what is begun is never begun again.

With this, an invariant of single moves holds of the result of any sequence of calls.
-/

namespace DocGraph.Inheriting

variable {g : ClassGraph} {s s' : Inheriting} {m : Member} {r : MemberRef} {act : List MemberRef}
  {visit : MemberRef → Inheriting → Inheriting}

/-- What a call that settles a member leaves. -/
structure Settles (g : ClassGraph) (r : MemberRef) (s s' : Inheriting) : Prop where
  run : Run g s s'
  active_eq : s'.active = s.active
  settled_or : r ∈ s'.settled ∨ ∃ m, g.HasMember m ∧ m.ref = r ∧ Refused s' m

lemma Settles.settled (h : Settles g r s s') (hr : r ∉ s.active) : r ∈ s'.settled := by
  refine h.settled_or.resolve_right ?_
  rintro ⟨m, -, rfl, ha, -⟩
  exact hr (h.active_eq ▸ ha)

/-! ### Sources -/

lemma source_eq (m : Member) (s : Inheriting) :
    source visit m s =
      match m.target? with
      | some t => explicitSource m t s
      | none => searchedSource visit m s := by
  rw [source, Member.target?]
  cases m.inherits with
  | none => rfl
  | some t => by_cases ht : t.isExplicit <;> simp [Option.filter, ht]

/-- The source that a search finds is one of the candidates, and settled. -/
lemma Search.settled {rs : List MemberRef} {src : Member} (h : Search s rs (some src))
    (hs : Sound g s) (hrs : ∀ r ∈ rs, r ∈ g.refs) :
    src.ref ∈ rs ∧ src.ref ∈ s.settled ∧ s.graph.memberAt? src.ref = some src := by
  induction rs with
  | nil => nomatch h
  | cons r rs ih =>
    obtain ⟨hr, hrs⟩ := List.forall_mem_cons.1 hrs
    cases h with
    | later _ h => exact (ih h hrs).imp_left (List.mem_cons_of_mem r)
    | here hset hsrc _ =>
      obtain ⟨src', hsrc', rfl⟩ := hs.exists_memberAt? hr
      rw [hsrc'] at hsrc
      cases hsrc
      exact ⟨List.mem_cons_self .., hset, hsrc'⟩

lemma Search.documented {rs : List MemberRef} {src : Member} (h : Search s rs (some src)) :
    ¬src.doc.isEmpty := by
  induction rs with
  | nil => nomatch h
  | cons r rs ih =>
    cases h with
    | here _ _ hdoc => exact hdoc
    | later _ h => exact ih h

/-- Going through candidates settles one after the other up to one with documentation. -/
lemma search_firstDocumented {rs : List MemberRef} (hs : Sound g s) (ha : s.active = act)
    (hvisit : ∀ r s, Sound g s → s.active = act → g.DependsOn m.ref r →
      (r ∈ s.active → g.NamesTarget m.ref r) → Settles g r s (visit r s))
    (hrs : ∀ r ∈ rs, g.DependsOn m.ref r) :
    ∃ src s', firstDocumented visit rs s = (src.map Member.ref, s') ∧ Run g s s' ∧ s'.active = act ∧
      Search s' rs src := by
  induction rs generalizing s with
  | nil => exact ⟨none, s, rfl, .refl, ha, .nothing⟩
  | cons r rs ih =>
    obtain ⟨hr, hrs⟩ := List.forall_mem_cons.1 hrs
    rw [firstDocumented]
    split
    · next hmem =>
      obtain ⟨src, s', heq, hrun, ha', hsearch⟩ := ih hs ha hrs
      exact ⟨src, s', heq, hrun, ha', .later (.inl (ha' ▸ ha ▸ hmem)) hsearch⟩
    · next hmem =>
      have hcall := hvisit r s hs ha hr fun ha => absurd ha hmem
      have hs₁ := hcall.run.sound hs
      have hset : r ∈ (visit r s).settled := hcall.settled hmem
      -- the candidate is settled now, so later calls do not change what it has
      obtain ⟨m', hm', hr'⟩ := hs₁.exists_memberAt? hr.mem_refs
      by_cases hdoc : m'.doc.isEmpty
      · obtain ⟨src, s', heq, hrun, ha', hsearch⟩ := ih hs₁ (hcall.active_eq.trans ha) hrs
        obtain ⟨hset', hsame⟩ := hrun.keeps hs₁ r hset
        refine ⟨src, s', by simp [hm', hdoc, heq], hcall.run.trans hrun, ha', ?_⟩
        exact .later (.inr ⟨hset', m', hsame.trans hm', hdoc⟩) hsearch
      · refine ⟨some m', visit r s, by simp [hm', hdoc, hr'], hcall.run, hcall.active_eq.trans ha, ?_⟩
        exact .here hset hm' hdoc

/-- Settle what a member needs that is begun, and finish it. -/
def complete (visit : MemberRef → Inheriting → Inheriting) (m : Member) (s : Inheriting) :
    Inheriting :=
  match source visit m s with
  | (none, s) => s.leave m.ref
  | (some src, s) => (copy m.ref src (visit src s)).leave m.ref

/-- A member that is begun is finished after some moves, with what its source then comes to. -/
lemma exists_outcome {rest : List MemberRef} (hs : Sound g s) (hm : g.HasMember m) (hn : m.needsDocs)
    (ha : s.active = m.ref :: rest)
    (hvisit : ∀ r s, Sound g s → s.active = m.ref :: rest → g.DependsOn m.ref r →
      (r ∈ s.active → g.NamesTarget m.ref r) → Settles g r s (visit r s))
    (hagain : ∀ r s, r ∈ s.settled → visit r s = s) :
    ∃ s' src j, Run g s s' ∧ s'.active = m.ref :: rest ∧ Outcome g s' m src j ∧
      complete visit m s = s'.finish m src j := by
  rw [complete, source_eq]
  cases ht : m.target? with
  | some t =>
    have hsame := hs.shape.target?_ref m t
    cases hfound : g.target? m t with
    | none =>
      have hnow : s.graph.target? m t = none := by simpa [hfound] using hsame
      refine ⟨s, none, _, .refl, ha, .missing ht hfound, ?_⟩
      simp only [explicitSource, hnow]
      rfl
    | some found =>
      rw [hfound, Option.map_some] at hsame
      obtain ⟨found', hnow, href⟩ := Option.map_eq_some_iff.1 hsame
      by_cases he : found.ref = m.ref
      · refine ⟨s, none, _, .refl, ha, .itself ht hfound he, ?_⟩
        simp only [explicitSource, hnow, href, he, if_true]
        rfl
      · have hdep := hm.dependsOn_target hn ht hfound he
        have hcall := hvisit found.ref s hs ha hdep fun _ => hm.namesTarget ht hfound
        have hs' := hcall.run.sound hs
        obtain ⟨src, hsrc, -⟩ := hs'.exists_memberAt? hdep.mem_refs
        have hor : found.ref ∈ (visit found.ref s).settled ∨ Refused (visit found.ref s) found := by
          refine hcall.settled_or.imp_right ?_
          rintro ⟨m', hm', hr', href⟩
          exact (ClassGraph.hasMember_of_target? hfound).unique hm' hr' ▸ href
        refine ⟨visit found.ref s, some src, _, hcall.run, hcall.active_eq.trans ha,
          .target ht hfound he hor hsrc, ?_⟩
        simp only [explicitSource, hnow, href, he, if_false, copy, hsrc]
        rfl
  | none =>
    have hcands : ∀ r ∈ candidates g m.ref, g.DependsOn m.ref r :=
      fun r hr => hm.dependsOn_candidate hn ht hr
    obtain ⟨src, s', heq, hrun, ha', hsearch⟩ := search_firstDocumented hs ha hvisit hcands
    rw [← hs.shape.candidates_eq] at heq
    simp only [searchedSource, heq]
    cases src with
    | none =>
      refine ⟨s', none, _, hrun, ha', .unfound ht hsearch, ?_⟩
      cases hi : m.inherits <;> simp [report, leave, finish, takeOver]
    | some src =>
      have hrefs : ∀ r ∈ candidates g m.ref, r ∈ g.refs := fun r hr => (hcands r hr).mem_refs
      obtain ⟨-, hset, hsrc⟩ := hsearch.settled (hrun.sound hs) hrefs
      refine ⟨s', some src, _, hrun, ha', .found ht hsearch, ?_⟩
      simp only [Option.map_some, hagain src.ref s' hset, copy, hsrc]
      rfl

/-! ### Calls -/

lemma resolve_of_mem_settled {depth : Nat} (hset : r ∈ s.settled) : resolve depth r s = s := by
  cases depth with
  | zero => rfl
  | succ depth =>
    rw [resolve]
    split <;> simp [hset]

/-- A call that is deep enough is a run that settles its member, unless that one is begun. -/
theorem settles_resolve {depth : Nat} (hs : Sound g s) (hr : r ∈ g.refs) (hc : Called g s r)
    (hd : g.refs.length < depth + s.active.length) : Settles g r s (resolve depth r s) := by
  -- beginning a member takes one from the depth and adds one to the members begun
  induction depth generalizing r s with
  | zero => exact absurd hs.length_active_le (by omega)
  | succ depth ih =>
    by_cases hset : r ∈ s.settled
    · rw [resolve_of_mem_settled hset]
      exact ⟨.refl, rfl, .inl hset⟩
    obtain ⟨m, hm, rfl⟩ := ClassGraph.mem_refs.1 hr
    rw [resolve, hs.unsettled m hm hset]
    simp only [hset, if_false]
    by_cases hn : m.needsDocs
    · simp only [hn, Bool.not_true, Bool.false_eq_true, if_false]
      by_cases ha : m.ref ∈ s.active
      · simp only [ha, if_true]
        exact ⟨.single (.circular hm ha hc), rfl, .inr ⟨m, hm, rfl, ha, by simp [report]⟩⟩
      · simp only [ha, if_false]
        have hmove : Move g s (s.enter m.ref) := .enter hm hset ha hn hc
        have hvisit : ∀ r s', Sound g s' → s'.active = m.ref :: s.active → g.DependsOn m.ref r →
            (r ∈ s'.active → g.NamesTarget m.ref r) → Settles g r s' (resolve depth r s') := by
          intro r s' hs' ha' hdep hname
          refine ih hs' hdep.mem_refs ?_ ?_
          · intro a hhead
            rw [ha', List.head?_cons] at hhead
            cases hhead
            exact ⟨hdep, hname⟩
          · simp only [ha', List.length_cons]
            omega
        obtain ⟨s', src, j, hrun, ha', ho, heq⟩ := exists_outcome (hmove.sound hs) hm hn rfl hvisit
          fun r s hset => resolve_of_mem_settled hset
        have hs' := hrun.sound (hmove.sound hs)
        change Settles g m.ref s (complete (resolve depth) m (s.enter m.ref))
        rw [heq]
        refine ⟨(Relation.ReflTransGen.head hmove hrun).tail (.finish hm ha' ho), ?_, .inl ?_⟩
        · exact hs'.active_finish ha'
        · exact List.mem_cons_self ..
    · simp only [Bool.not_eq_true] at hn
      simp only [hn, Bool.not_false, if_true]
      have ha : m.ref ∉ s.active := fun ha => by simp [hs.needsDocs hm ha] at hn
      exact ⟨.single (.keep hm hset ha (by simp [hn])), rfl, .inl (List.mem_cons_self ..)⟩

/-- Settling members one after the other is a run, after which they are settled and none is begun. -/
theorem run_foldl_resolveMember {rs : List MemberRef} (hs : Sound g s) (ha : s.active = [])
    (hrs : ∀ r ∈ rs, r ∈ g.refs) :
    Run g s (rs.foldl resolveMember s) ∧ (rs.foldl resolveMember s).active = [] ∧
      ∀ r ∈ rs, r ∈ (rs.foldl resolveMember s).settled := by
  induction rs generalizing s with
  | nil => exact ⟨.refl, ha, by simp⟩
  | cons r rs ih =>
    obtain ⟨hr, hrs⟩ := List.forall_mem_cons.1 hrs
    have hcall : Settles g r s (resolveMember s r) := by
      refine settles_resolve hs hr ?_ ?_
      · simp [Called, ha]
      · rw [hs.shape.refs_eq]
        omega
    have hset : r ∈ (resolveMember s r).settled := hcall.settled (by simp [ha])
    have hs₁ := hcall.run.sound hs
    obtain ⟨hrun, ha', hall⟩ := ih hs₁ (hcall.active_eq.trans ha) hrs
    exact ⟨hcall.run.trans hrun, ha', List.forall_mem_cons.2 ⟨(hrun.keeps hs₁ r hset).1, hall⟩⟩

end DocGraph.Inheriting
