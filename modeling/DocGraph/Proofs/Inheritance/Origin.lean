import DocGraph.Proofs.Inheritance.Resolution

/-!
# Where documentation comes from

A settled member is as it was, or it has taken over what it lacks from a member that it depends on. That
one is settled as well and does not change any more, unless it was being settled at the time and the call
for it was reported.
-/

namespace DocGraph.Inheriting

variable {g : ClassGraph} {s s' : Inheriting} {m src : Member}

/-- A member is what its reference means for good, or it was taken while it was being settled, which was
reported. -/
def IsOrigin (g : ClassGraph) (s : Inheriting) (src : Member) : Prop :=
  (src.ref ∈ s.settled ∧ s.graph.memberAt? src.ref = some src) ∨
    ∃ m, g.HasMember m ∧ m.ref = src.ref ∧ .warning m.circularDiagnostic ∈ s.journal

/-- What has become of a settled member. -/
inductive Fate (g : ClassGraph) (s : Inheriting) (m : Member) : Prop
  | kept (h : s.graph.memberAt? m.ref = some m) (ht : m.target?.isSome → g.dependencies m = [])
  | filled {src : Member} (h : s.graph.memberAt? m.ref = some (m.inherit src))
      (hd : g.DependsOn m.ref src.ref) (hsrc : IsOrigin g s src)

/-- What was reported stays reported. -/
lemma Move.mem_journal (h : Move g s s') {e : Event} (he : e ∈ s.journal) : e ∈ s'.journal := by
  cases h with
  | keep => exact he
  | enter => exact he
  | circular => exact List.mem_append_left _ he
  | finish => exact List.mem_append_left _ he

lemma IsOrigin.move (h : IsOrigin g s src) (hs : Sound g s) (hmove : Move g s s') :
    IsOrigin g s' src := by
  rcases h with ⟨hset, hsrc⟩ | ⟨m, hm, hr, hwarn⟩
  · obtain ⟨hset', hsame⟩ := hmove.keeps hs _ hset
    exact .inl ⟨hset', hsame.trans hsrc⟩
  · exact .inr ⟨m, hm, hr, hmove.mem_journal hwarn⟩

/-- A member that was found by a search, or is a target, is an origin once the search is over. -/
lemma Outcome.isOrigin {j : Journal} (ho : Outcome g s m (some src) j) (hs : Sound g s)
    (hm : g.HasMember m) (hn : m.needsDocs) :
    g.DependsOn m.ref src.ref ∧ IsOrigin g s src := by
  cases ho with
  | @target t found _ ht h hne hr hsrc =>
    have hfound := ClassGraph.hasMember_of_target? h
    obtain ⟨src', hsrc', href⟩ := hs.exists_memberAt? hfound.mem_refs
    cases hsrc.symm.trans hsrc'
    refine ⟨href ▸ hm.dependsOn_target hn ht h hne, ?_⟩
    rcases hr with hset | ⟨-, hwarn⟩
    · exact .inl ⟨href ▸ hset, href ▸ hsrc⟩
    · exact .inr ⟨found, hfound, href.symm, hwarn⟩
  | found ht h =>
    have hcands : ∀ r ∈ candidates g m.ref, g.DependsOn m.ref r :=
      fun r hr => hm.dependsOn_candidate hn ht hr
    obtain ⟨hmem, hset, hsrc⟩ := h.settled hs fun r hr => (hcands r hr).mem_refs
    exact ⟨hcands _ hmem, .inl ⟨hset, hsrc⟩⟩

/-- A member without a source has no target, or none but itself. -/
lemma Outcome.dependencies_eq_nil {j : Journal} (ho : Outcome g s m none j) (hn : m.needsDocs) :
    m.target?.isSome → g.dependencies m = [] := by
  intro ht
  cases ho with
  | missing ht h => simp [ClassGraph.dependencies, hn, ht, h]
  | itself ht h he => simp [ClassGraph.dependencies, hn, ht, h, he]
  | unfound hnone => simp [hnone] at ht

/-- What all settled members have become. -/
def HaveFates (g : ClassGraph) (s : Inheriting) : Prop :=
  ∀ m, g.HasMember m → m.ref ∈ s.settled → Fate g s m

lemma Fate.move (h : Fate g s m) (hset : m.ref ∈ s.settled) (hs : Sound g s) (hmove : Move g s s') :
    Fate g s' m := by
  have hsame := (hmove.keeps hs _ hset).2
  cases h with
  | kept h ht => exact .kept (hsame.trans h) ht
  | filled h hd hsrc => exact .filled (hsame.trans h) hd (hsrc.move hs hmove)

lemma Move.haveFates (h : Move g s s') (hs : Sound g s) (hf : HaveFates g s) : HaveFates g s' := by
  intro m' hm' hset'
  by_cases hset : m'.ref ∈ s.settled
  · exact (hf m' hm' hset).move hset hs h
  -- only the member that the move settles is left
  cases h with
  | @keep m hm _ ha hn =>
    have hr : m'.ref = m.ref := (List.mem_cons.1 hset').resolve_right hset
    obtain rfl := hm.unique hm' hr
    exact .kept (hs.unsettled _ hm hset) fun _ => if_neg hn
  | enter => exact absurd hset' hset
  | circular => exact absurd hset' hset
  | @finish m rest src j hm ha ho =>
    have hr : m'.ref = m.ref := (List.mem_cons.1 hset').resolve_right hset
    obtain rfl := hm.unique hm' hr
    have hmem : m'.ref ∈ s.active := by simp [ha]
    have hn := hs.needsDocs hm hmem
    cases src with
    | none => exact .kept (hs.memberAt?_finish hm hmem) (ho.dependencies_eq_nil hn)
    | some src =>
      obtain ⟨hd, hsrc⟩ := ho.isOrigin hs hm hn
      exact .filled (hs.memberAt?_finish hm hmem) hd (hsrc.move hs (.finish hm ha ho))

/-- The state in which all members of a graph are settled. -/
def settleAll (g : ClassGraph) : Inheriting := g.refs.foldl resolveMember { graph := g }

lemma run_settleAll (g : ClassGraph) : Run g { graph := g } (settleAll g) :=
  (run_foldl_resolveMember (sound_start g) rfl fun _ hr => hr).1

/-- Inheriting leaves every member as it was or fills it. -/
lemma fate_settleAll (hm : g.HasMember m) : Fate g (settleAll g) m := by
  have hstart := sound_start g
  obtain ⟨hrun, -, hall⟩ := run_foldl_resolveMember hstart rfl fun r (hr : r ∈ g.refs) => hr
  have hfates : HaveFates g (settleAll g) :=
    hrun.preserves hstart (fun _ _ hset => by simp at hset) fun _ _ hs hf h => h.haveFates hs hf
  exact hfates m hm (hall _ hm.mem_refs)

/-- Every member after inheriting is one from before, or one that has taken over what it lacks. -/
lemma exists_of_hasMember_inheritDocs (hm : g.inheritDocs.1.HasMember m) :
    ∃ m₀, g.HasMember m₀ ∧ m₀.ref = m.ref ∧
      (m = m₀ ∨ ∃ src, m = m₀.inherit src ∧ IsOrigin g (settleAll g) src) := by
  obtain ⟨f, hf, hg⟩ := ((run_settleAll g).sound (sound_start g)).shape
  have hat : (settleAll g).graph.memberAt? m.ref = some m := hm
  obtain ⟨m₀, hm₀, hfm⟩ : ∃ m₀, g.memberAt? m.ref = some m₀ ∧ f m₀ = m := by
    simpa [hg, ClassGraph.memberAt?_mapMembers] using hat
  have href : m₀.ref = m.ref := by rw [← hfm, hf]
  have hm₀ : g.HasMember m₀ := by rw [ClassGraph.HasMember, href, hm₀]
  refine ⟨m₀, hm₀, href, ?_⟩
  cases fate_settleAll hm₀ with
  | kept h => exact .inl (Option.some_inj.1 (hat.symm.trans (href ▸ h)))
  | @filled src h _ hsrc => exact .inr ⟨src, Option.some_inj.1 (hat.symm.trans (href ▸ h)), hsrc⟩

end DocGraph.Inheriting
