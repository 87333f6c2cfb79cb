import DocGraph.Proofs.Inheritance.Filling
import DocGraph.Proofs.Inheritance.Origin

/-!
# Nesting of calls

`resolve` is cut off where its depth ends. To see that this never happens, calls are described by rules
here: which calls one makes in turn, and what it does when these have returned. No rule cuts a call off,
so what the rules account for has returned, and its depth bounds how calls are nested in it.

The rules also say for which members a source is looked for. Main statement: whatever members are called
for one after the other, calls are nested at most one deeper than there are members, and no source is
looked for twice.
-/

namespace DocGraph.Inheriting

variable {g : ClassGraph} {s s' s₁ s₂ : Inheriting} {m : Member} {r : MemberRef}
  {rs xs ys act : List MemberRef} {src : Option MemberRef} {depth : Nat}

/-! ### How calls go -/

/-- Calls for members in some states, with the states in which they return and the members for which
they look for a source, in turn. -/
abbrev Calls := MemberRef → Inheriting → Inheriting → List MemberRef → Prop

/-- Candidates are called for in turn up to one with documentation. -/
inductive LooksThrough (call : Calls) :
    List MemberRef → Inheriting → Option MemberRef → Inheriting → List MemberRef → Prop
  | nothing {s : Inheriting} : LooksThrough call [] s none s []
  | passed {r : MemberRef} {rs xs : List MemberRef} {s s' : Inheriting} {src : Option MemberRef}
      (ha : r ∈ s.active) (h : LooksThrough call rs s src s' xs) : LooksThrough call (r :: rs) s src s' xs
  | documented {r : MemberRef} {rs xs : List MemberRef} {s s' : Inheriting} {m : Member}
      (ha : r ∉ s.active) (hcall : call r s s' xs) (hm : s'.graph.memberAt? r = some m)
      (hdoc : ¬m.doc.isEmpty) : LooksThrough call (r :: rs) s (some r) s' xs
  | undocumented {r : MemberRef} {rs xs ys : List MemberRef} {s s' s'' : Inheriting}
      {src : Option MemberRef} (ha : r ∉ s.active) (hcall : call r s s' xs)
      (hdoc : ∀ m ∈ s'.graph.memberAt? r, m.doc.isEmpty) (h : LooksThrough call rs s' src s'' ys) :
      LooksThrough call (r :: rs) s src s'' (xs ++ ys)

/-- A source is looked for. -/
inductive FindsSource (call : Calls) (m : Member) (s : Inheriting) :
    Option MemberRef → Inheriting → List MemberRef → Prop
  | target {t : DocTarget} (ht : m.target? = some t) :
      FindsSource call m s (explicitSource m t s).1 (explicitSource m t s).2 []
  | found {r : MemberRef} {s' : Inheriting} {xs : List MemberRef} (ht : m.target? = none)
      (h : LooksThrough call (candidates s.graph m.ref) s (some r) s' xs) :
      FindsSource call m s (some r) s' xs
  | unfound {s' : Inheriting} {xs : List MemberRef} (ht : m.target? = none)
      (h : LooksThrough call (candidates s.graph m.ref) s none s' xs) :
      FindsSource call m s none
        (if m.inherits.isSome then s'.report (.warning m.noSourceDiagnostic) else s') xs

/-- A call returns, in terms of the calls that it makes. -/
inductive Resolves (call : Calls) (r : MemberRef) (s : Inheriting) : Inheriting → List MemberRef → Prop
  | missing (hm : s.graph.memberAt? r = none) : Resolves call r s s []
  | settled {m : Member} (hm : s.graph.memberAt? r = some m) (hset : r ∈ s.settled) :
      Resolves call r s s []
  | kept {m : Member} (hm : s.graph.memberAt? r = some m) (hset : r ∉ s.settled)
      (hn : ¬m.needsDocs) : Resolves call r s (s.settle r) []
  | refused {m : Member} (hm : s.graph.memberAt? r = some m) (hset : r ∉ s.settled)
      (hn : m.needsDocs) (ha : r ∈ s.active) :
      Resolves call r s (s.report (.warning m.circularDiagnostic)) []
  | unfilled {m : Member} {s' : Inheriting} {xs : List MemberRef}
      (hm : s.graph.memberAt? r = some m) (hset : r ∉ s.settled) (hn : m.needsDocs)
      (ha : r ∉ s.active) (h : FindsSource call m (s.enter r) none s' xs) :
      Resolves call r s (s'.leave r) (r :: xs)
  | filled {m : Member} {src : MemberRef} {s' s'' : Inheriting} {xs ys : List MemberRef}
      (hm : s.graph.memberAt? r = some m) (hset : r ∉ s.settled) (hn : m.needsDocs)
      (ha : r ∉ s.active) (h : FindsSource call m (s.enter r) (some src) s' xs)
      (hcall : call src s' s'' ys) : Resolves call r s ((copy r src s'').leave r) (r :: (xs ++ ys))

/-- Calls that return and are nested at most so deep. -/
def ReturnsWithin : Nat → Calls
  | 0 => fun _ _ _ _ => False
  | depth + 1 => Resolves (ReturnsWithin depth)

/-- Members are called for one after the other. -/
inductive ReturnInTurn (depth : Nat) :
    List MemberRef → Inheriting → Inheriting → List MemberRef → Prop
  | nil {s : Inheriting} : ReturnInTurn depth [] s s []
  | cons {r : MemberRef} {rs xs ys : List MemberRef} {s s' s'' : Inheriting}
      (h : ReturnsWithin depth r s s' xs) (hrest : ReturnInTurn depth rs s' s'' ys) :
      ReturnInTurn depth (r :: rs) s s'' (xs ++ ys)

/-! ### What calls come to -/

section Agreement

variable {call : Calls} {visit : MemberRef → Inheriting → Inheriting}
  (hvisit : ∀ r s s' xs, call r s s' xs → visit r s = s')

include hvisit

lemma LooksThrough.firstDocumented_eq (h : LooksThrough call rs s src s' xs) :
    firstDocumented visit rs s = (src, s') := by
  induction h with
  | nothing => rfl
  | passed ha _ ih => rw [firstDocumented, if_pos ha, ih]
  | documented ha hcall hm hdoc =>
    rw [firstDocumented, if_neg ha, hvisit _ _ _ _ hcall]
    simp [hm, hdoc]
  | @undocumented r _ _ _ _ s' _ _ ha hcall hdoc _ ih =>
    rw [firstDocumented, if_neg ha, hvisit _ _ _ _ hcall]
    cases hm : s'.graph.memberAt? r with
    | none => simp [hm, ih]
    | some m => simp [hm, hdoc m hm, ih]

lemma FindsSource.source_eq (h : FindsSource call m s src s' xs) : source visit m s = (src, s') := by
  rw [Inheriting.source_eq]
  cases h with
  | target ht => simp [ht]
  | found ht h => simp [ht, searchedSource, h.firstDocumented_eq hvisit]
  | unfound ht h => simp [ht, searchedSource, h.firstDocumented_eq hvisit]

end Agreement

lemma Resolves.resolve_eq {call : Calls}
    (hcall : ∀ r s s' xs, call r s s' xs → resolve depth r s = s') (h : Resolves call r s s' xs) :
    resolve (depth + 1) r s = s' := by
  rw [resolve]
  cases h with
  | missing hm => simp [hm]
  | settled hm hset => simp [hm, hset]
  | kept hm hset hn => simp [hm, hset, hn]
  | refused hm hset hn ha => simp [hm, hset, hn, ha]
  | unfilled hm hset hn ha h => simp [hm, hset, hn, ha, h.source_eq hcall]
  | filled hm hset hn ha h hsrc =>
    simp [hm, hset, hn, ha, h.source_eq hcall, hcall _ _ _ _ hsrc]

/-- A call that returns comes to the same with all depths that are not smaller. -/
theorem ReturnsWithin.resolve_eq {depth' : Nat} (h : ReturnsWithin depth r s s' xs)
    (hle : depth ≤ depth') : resolve depth' r s = s' := by
  induction depth generalizing depth' r s s' xs with
  | zero => exact h.elim
  | succ depth ih =>
    obtain _ | depth' := depth'
    · omega
    · exact Resolves.resolve_eq (fun _ _ _ _ h => ih h (by omega)) h

/-! ### One way to go -/

section Unique

variable {call : Calls} {src' : Option MemberRef}
  (hcall : ∀ r s s₁ s₂ xs ys, call r s s₁ xs → call r s s₂ ys → s₁ = s₂ ∧ xs = ys)

include hcall

lemma LooksThrough.unique (h : LooksThrough call rs s src s₁ xs)
    (h' : LooksThrough call rs s src' s₂ ys) : src = src' ∧ s₁ = s₂ ∧ xs = ys := by
  induction h generalizing src' s₂ ys with
  | nothing =>
    cases h'
    simp
  | passed ha _ ih =>
    cases h' with
    | passed _ h' => exact ih h'
    | documented hna => exact absurd ha hna
    | undocumented hna => exact absurd ha hna
  | documented ha h hm hdoc =>
    cases h' with
    | passed ha' => exact absurd ha' ha
    | documented _ h' =>
      obtain ⟨rfl, rfl⟩ := hcall _ _ _ _ _ _ h h'
      simp
    | undocumented _ h' hdoc' =>
      obtain ⟨rfl, rfl⟩ := hcall _ _ _ _ _ _ h h'
      exact absurd (hdoc' _ hm) hdoc
  | undocumented ha h hdoc _ ih =>
    cases h' with
    | passed ha' => exact absurd ha' ha
    | documented _ h' hm' hdoc' =>
      obtain ⟨rfl, rfl⟩ := hcall _ _ _ _ _ _ h h'
      exact absurd (hdoc _ hm') hdoc'
    | undocumented _ h' _ hrest' =>
      obtain ⟨rfl, rfl⟩ := hcall _ _ _ _ _ _ h h'
      obtain ⟨rfl, rfl, rfl⟩ := ih hrest'
      simp

lemma FindsSource.unique (h : FindsSource call m s src s₁ xs)
    (h' : FindsSource call m s src' s₂ ys) : src = src' ∧ s₁ = s₂ ∧ xs = ys := by
  cases h with
  | target ht => cases h' <;> simp_all
  | found ht h =>
    cases h' with
    | target ht' => simp [ht] at ht'
    | found _ h' => exact h.unique hcall h'
    | unfound _ h' => simpa using (h.unique hcall h').1
  | unfound ht h =>
    cases h' with
    | target ht' => simp [ht] at ht'
    | found _ h' => simpa using (h.unique hcall h').1
    | unfound _ h' =>
      obtain ⟨-, rfl, rfl⟩ := h.unique hcall h'
      simp

lemma Resolves.unique (h : Resolves call r s s₁ xs) (h' : Resolves call r s s₂ ys) :
    s₁ = s₂ ∧ xs = ys := by
  cases h with
  | missing hm => cases h' <;> simp_all
  | settled hm hset => cases h' <;> simp_all
  | kept hm hset hn => cases h' <;> simp_all
  | refused hm hset hn ha => cases h' <;> simp_all
  | unfilled hm hset hn ha h =>
    cases h' with
    | unfilled hm' _ _ _ h' =>
      obtain rfl := Option.some.inj (hm.symm.trans hm')
      obtain ⟨-, rfl, rfl⟩ := h.unique hcall h'
      simp
    | filled hm' _ _ _ h' =>
      obtain rfl := Option.some.inj (hm.symm.trans hm')
      simpa using (h.unique hcall h').1
    | _ => simp_all
  | filled hm hset hn ha h hsrc =>
    cases h' with
    | unfilled hm' _ _ _ h' =>
      obtain rfl := Option.some.inj (hm.symm.trans hm')
      simpa using (h.unique hcall h').1
    | filled hm' _ _ _ h' hsrc' =>
      obtain rfl := Option.some.inj (hm.symm.trans hm')
      obtain ⟨hsame, rfl, rfl⟩ := h.unique hcall h'
      obtain rfl := Option.some.inj hsame
      obtain ⟨rfl, rfl⟩ := hcall _ _ _ _ _ _ hsrc hsrc'
      simp
    | _ => simp_all

end Unique

/-- A call goes in one way only. -/
theorem ReturnsWithin.unique (h : ReturnsWithin depth r s s₁ xs)
    (h' : ReturnsWithin depth r s s₂ ys) : s₁ = s₂ ∧ xs = ys := by
  induction depth generalizing r s s₁ s₂ xs ys with
  | zero => exact h.elim
  | succ depth ih =>
    have hcall : ∀ r s s₁ s₂ xs ys, ReturnsWithin depth r s s₁ xs →
        ReturnsWithin depth r s s₂ ys → s₁ = s₂ ∧ xs = ys := by
      intro _ _ _ _ _ _ h h'
      exact ih h h'
    exact Resolves.unique hcall h h'

lemma ReturnInTurn.unique (h : ReturnInTurn depth rs s s₁ xs) (h' : ReturnInTurn depth rs s s₂ ys) :
    s₁ = s₂ ∧ xs = ys := by
  induction h generalizing s₂ ys with
  | nil =>
    cases h'
    simp
  | cons h _ ih =>
    cases h' with
    | cons h' hrest' =>
      obtain ⟨rfl, rfl⟩ := h.unique h'
      obtain ⟨rfl, rfl⟩ := ih hrest'
      simp

/-! ### What a call leaves -/

/-- The members that are being settled are distinct members of the graph. -/
structure Orderly (g : ClassGraph) (s : Inheriting) : Prop where
  shape : g.SameShape s.graph
  active_nodup : s.active.Nodup
  active_mem : ∀ r ∈ s.active, r ∈ g.refs

lemma Orderly.enter (hs : Orderly g s) (hr : r ∈ g.refs) (ha : r ∉ s.active) :
    Orderly g (s.enter r) where
  shape := hs.shape
  active_nodup := List.nodup_cons.2 ⟨ha, hs.active_nodup⟩
  active_mem := List.forall_mem_cons.2 ⟨hr, hs.active_mem⟩

/-- Calls leave the members that are being settled as they find them, and they look for sources of members
only that were neither settled nor being settled. Those are settled then. -/
structure Advances (g : ClassGraph) (s s' : Inheriting) (xs : List MemberRef) : Prop where
  orderly : Orderly g s'
  active_eq : s'.active = s.active
  settled_subset : s.settled ⊆ s'.settled
  nodup : xs.Nodup
  fresh : ∀ x ∈ xs, x ∉ s.settled ∧ x ∉ s.active ∧ x ∈ s'.settled

namespace Advances

lemma refl (hs : Orderly g s) : Advances g s s [] where
  orderly := hs
  active_eq := rfl
  settled_subset := List.Subset.refl _
  nodup := .nil
  fresh := List.forall_mem_nil _

lemma trans (h : Advances g s s₁ xs) (h' : Advances g s₁ s₂ ys) : Advances g s s₂ (xs ++ ys) where
  orderly := h'.orderly
  active_eq := h'.active_eq.trans h.active_eq
  settled_subset := List.Subset.trans h.settled_subset h'.settled_subset
  nodup := by
    refine List.nodup_append'.2 ⟨h.nodup, h'.nodup, ?_⟩
    intro x hx hy
    exact (h'.fresh x hy).1 (h.fresh x hx).2.2
  fresh x hx := by
    rcases List.mem_append.1 hx with hx | hx
    · obtain ⟨hset, ha, hset'⟩ := h.fresh x hx
      exact ⟨hset, ha, h'.settled_subset hset'⟩
    · obtain ⟨hset, ha, hset'⟩ := h'.fresh x hx
      exact ⟨fun h₀ => hset (h.settled_subset h₀), h.active_eq ▸ ha, hset'⟩

lemma report (h : Advances g s s' xs) (e : Event) : Advances g s (s'.report e) xs :=
  { h with orderly := { h.orderly with } }

lemma settle (hs : Orderly g s) (r : MemberRef) : Advances g s (s.settle r) [] where
  orderly := { hs with }
  active_eq := rfl
  settled_subset := List.subset_cons_self _ _
  nodup := .nil
  fresh := List.forall_mem_nil _

lemma copy (h : Advances g s s' xs) (r from' : MemberRef) :
    Advances g s (Inheriting.copy r from' s') xs := by
  rw [Inheriting.copy]
  cases s'.graph.memberAt? from' with
  | none => exact h
  | some src =>
    have hshape := h.orderly.shape.modifyMember r (Member.ref_inherit · src)
    exact { h with orderly := { h.orderly with shape := hshape } }

/-- What was looked for while a member was being settled is not that one. -/
lemma leave (h : Advances g (s.enter r) s' xs) (hset : r ∉ s.settled) (ha : r ∉ s.active) :
    Advances g s (s'.leave r) (r :: xs) := by
  have hactive : s'.active = r :: s.active := h.active_eq
  have hleft : (s'.leave r).active = s.active := by
    change s'.active.filter (· ≠ r) = s.active
    rw [hactive, List.filter_cons_of_neg (by simp), List.filter_eq_self]
    intro x hx
    simpa using fun hxr : x = r => ha (hxr ▸ hx)
  have hfresh : ∀ x ∈ xs, x ∉ s.settled ∧ x ∉ s.active ∧ x ≠ r ∧ x ∈ s'.settled := by
    intro x hx
    obtain ⟨hset, ha, hset'⟩ := h.fresh x hx
    obtain ⟨hne, ha⟩ := not_or.1 fun h => ha (List.mem_cons.2 h)
    exact ⟨hset, ha, hne, hset'⟩
  constructor
  · refine ⟨h.orderly.shape, ?_, ?_⟩
    · exact h.orderly.active_nodup.filter _
    · intro x hx
      exact h.orderly.active_mem x (List.mem_of_mem_filter hx)
  · exact hleft
  · exact fun x hx => List.mem_cons_of_mem _ (h.settled_subset hx)
  · exact List.nodup_cons.2 ⟨fun hr => (hfresh r hr).2.2.1 rfl, h.nodup⟩
  · intro x hx
    rcases List.mem_cons.1 hx with rfl | hx
    · exact ⟨hset, ha, List.mem_cons_self ..⟩
    · obtain ⟨hset, ha, -, hset'⟩ := hfresh x hx
      exact ⟨hset, ha, List.mem_cons_of_mem _ hset'⟩

end Advances

/-! ### Calls return -/

/-- While certain members are being settled, calls for members of the graph return. -/
def AllReturn (g : ClassGraph) (act : List MemberRef) (call : Calls) : Prop :=
  ∀ r s, Orderly g s → s.active = act → r ∈ g.refs → ∃ s' xs, call r s s' xs ∧ Advances g s s' xs

lemma AllReturn.exists_looksThrough {call : Calls} (hcall : AllReturn g act call) (hs : Orderly g s)
    (ha : s.active = act) (hrs : ∀ r ∈ rs, r ∈ g.refs) :
    ∃ src s' xs, LooksThrough call rs s src s' xs ∧ Advances g s s' xs ∧ ∀ r ∈ src, r ∈ g.refs := by
  induction rs generalizing s with
  | nil => exact ⟨none, s, [], .nothing, .refl hs, by simp⟩
  | cons r rs ih =>
    obtain ⟨hr, hrs⟩ := List.forall_mem_cons.1 hrs
    by_cases hmem : r ∈ s.active
    · obtain ⟨src, s', xs, h, hadv, hsrc⟩ := ih hs ha hrs
      exact ⟨src, s', xs, .passed hmem h, hadv, hsrc⟩
    obtain ⟨s₁, xs, hret, hadv⟩ := hcall r s hs ha hr
    by_cases hdoc : ∀ m ∈ s₁.graph.memberAt? r, m.doc.isEmpty
    · obtain ⟨src, s', ys, h, hadv', hsrc⟩ := ih hadv.orderly (hadv.active_eq.trans ha) hrs
      exact ⟨src, s', xs ++ ys, .undocumented hmem hret hdoc h, hadv.trans hadv', hsrc⟩
    · obtain ⟨m, hm, hdoc⟩ : ∃ m ∈ s₁.graph.memberAt? r, ¬m.doc.isEmpty := by simpa using hdoc
      exact ⟨some r, s₁, xs, .documented hmem hret hm hdoc, hadv, by simpa using hr⟩

lemma mem_refs_of_explicitSource {t : DocTarget} (hs : g.SameShape s.graph)
    (h : (explicitSource m t s).1 = some r) : r ∈ g.refs := by
  rw [explicitSource] at h
  cases hfound : s.graph.target? m t with
  | none => simp [hfound] at h
  | some found =>
    have hmem : found.ref ∈ s.graph.refs := (ClassGraph.hasMember_of_target? hfound).mem_refs
    by_cases he : found.ref = m.ref
    · simp [hfound, he] at h
    · obtain rfl : found.ref = r := by simpa [hfound, he] using h
      exact hs.refs_eq ▸ hmem

lemma advances_explicitSource {t : DocTarget} (hs : Orderly g s) :
    Advances g s (explicitSource m t s).2 [] := by
  rw [explicitSource]
  split
  · exact (Advances.refl hs).report _
  · split
    · exact (Advances.refl hs).report _
    · exact .refl hs

lemma AllReturn.exists_findsSource {call : Calls} (hcall : AllReturn g act call) (hs : Orderly g s)
    (ha : s.active = act) (m : Member) :
    ∃ src s' xs, FindsSource call m s src s' xs ∧ Advances g s s' xs ∧ ∀ r ∈ src, r ∈ g.refs := by
  cases ht : m.target? with
  | some t =>
    refine ⟨_, _, _, .target ht, advances_explicitSource hs, ?_⟩
    intro r hr
    exact mem_refs_of_explicitSource hs.shape hr
  | none =>
    have hcands : ∀ r ∈ candidates s.graph m.ref, r ∈ g.refs := by
      intro r hr
      exact hs.shape.refs_eq ▸ ClassGraph.mem_refs_of_mem_candidates hr
    obtain ⟨src, s', xs, h, hadv, hsrc⟩ := hcall.exists_looksThrough hs ha hcands
    cases src with
    | some src => exact ⟨some src, s', xs, .found ht h, hadv, hsrc⟩
    | none =>
      refine ⟨none, _, xs, .unfound ht h, ?_, hsrc⟩
      split
      · exact hadv.report _
      · exact hadv

/-- A call returns if its depth and the number of members being settled exceed the number of members. -/
theorem exists_returns (hs : Orderly g s) (hr : r ∈ g.refs)
    (hd : g.refs.length < depth + s.active.length) :
    ∃ s' xs, ReturnsWithin depth r s s' xs ∧ Advances g s s' xs := by
  -- beginning a member takes one from the depth and adds one to the members being settled
  induction depth generalizing r s with
  | zero =>
    have hle : s.active.length ≤ g.refs.length :=
      hs.active_nodup.length_le_of_subset fun _ ha => hs.active_mem _ ha
    omega
  | succ depth ih =>
    have hr' : r ∈ s.graph.refs := hs.shape.refs_eq.symm ▸ hr
    obtain ⟨m, hm, rfl⟩ := ClassGraph.mem_refs.1 hr'
    by_cases hset : m.ref ∈ s.settled
    · exact ⟨s, [], .settled hm hset, .refl hs⟩
    by_cases hn : m.needsDocs
    · by_cases ha : m.ref ∈ s.active
      · exact ⟨_, _, .refused hm hset hn ha, (Advances.refl hs).report _⟩
      have hcall : AllReturn g (m.ref :: s.active) (ReturnsWithin depth) := by
        intro r' s' hs' ha' hr'
        apply ih hs' hr'
        simp only [ha', List.length_cons]
        omega
      obtain ⟨src, s₁, xs, hfind, hadv, hsrc⟩ :=
        hcall.exists_findsSource (hs.enter hr ha) rfl m
      cases src with
      | none => exact ⟨_, _, .unfilled hm hset hn ha hfind, hadv.leave hset ha⟩
      | some src =>
        obtain ⟨s₂, ys, hret, hadv'⟩ := hcall src s₁ hadv.orderly hadv.active_eq (hsrc src rfl)
        refine ⟨_, _, .filled hm hset hn ha hfind hret, ?_⟩
        exact ((hadv.trans hadv').copy _ _).leave hset ha
    · exact ⟨_, _, .kept hm hset hn, .settle hs _⟩

/-! ### Calls in turn -/

lemma exists_returnInTurn (hs : Orderly g s) (ha : s.active = []) (hrs : ∀ r ∈ rs, r ∈ g.refs) :
    ∃ xs, ReturnInTurn (g.refs.length + 1) rs s (rs.foldl resolveMember s) xs ∧
      Advances g s (rs.foldl resolveMember s) xs := by
  induction rs generalizing s with
  | nil => exact ⟨[], .nil, .refl hs⟩
  | cons r rs ih =>
    obtain ⟨hr, hrs⟩ := List.forall_mem_cons.1 hrs
    obtain ⟨s₁, xs, hret, hadv⟩ : ∃ s₁ xs, ReturnsWithin (g.refs.length + 1) r s s₁ xs ∧
        Advances g s s₁ xs := exists_returns hs hr (by omega)
    have hcall : resolveMember s r = s₁ := by
      rw [resolveMember, hs.shape.refs_eq]
      exact hret.resolve_eq le_rfl
    obtain ⟨ys, hrest, hadv'⟩ := ih hadv.orderly (hadv.active_eq.trans ha) hrs
    rw [List.foldl_cons, hcall]
    exact ⟨xs ++ ys, .cons hret hrest, hadv.trans hadv'⟩

/-- Whatever members of a graph are called for one after the other, the calls return, nested at most one
deeper than there are members. No source is looked for twice, no member is still being settled between
two calls, and the members called for are settled. -/
theorem foldl_resolveMember_returns (g : ClassGraph) {rs : List MemberRef}
    (hrs : ∀ r ∈ rs, r ∈ g.refs) :
    let s := rs.foldl resolveMember { graph := g }
    (∃ searched, searched.Nodup ∧ ∀ s' xs,
      ReturnInTurn (g.refs.length + 1) rs { graph := g } s' xs ↔ s' = s ∧ xs = searched) ∧
      (∀ rs', rs' <+: rs → (rs'.foldl resolveMember { graph := g }).active = []) ∧
      (∀ r ∈ rs, r ∈ s.settled) ∧
      ∀ r ∈ g.refs, r ∈ (settleAll g).settled := by
  intro s
  have hstart : Orderly g { graph := g } := ⟨.refl g, .nil, by simp⟩
  refine ⟨?_, ?_, ?_, ?_⟩
  · obtain ⟨searched, hret, hadv⟩ := exists_returnInTurn hstart rfl hrs
    refine ⟨searched, hadv.nodup, ?_⟩
    intro s' xs
    constructor
    · intro h
      exact h.unique hret
    · rintro ⟨rfl, rfl⟩
      exact hret
  · intro rs' hrs'
    obtain ⟨_, -, hadv⟩ := exists_returnInTurn hstart rfl fun r hr => hrs r (hrs'.subset hr)
    exact hadv.active_eq
  · exact (run_foldl_resolveMember (sound_start g) rfl hrs).2.2
  · exact (run_foldl_resolveMember (sound_start g) rfl fun _ hr => hr).2.2

/-- Parents, mixins and targets that go round do not keep calls from returning. -/
theorem foldl_resolveMember_returns_tangle :
    (∀ r ∈ tangledCalls, r ∈ tangle.refs) ∧
      (∃ searched, searched.Nodup ∧ ∀ s' xs,
        ReturnInTurn (tangle.refs.length + 1) tangledCalls { graph := tangle } s' xs ↔
          s' = tangledCalls.foldl resolveMember { graph := tangle } ∧ xs = searched) ∧
      ∀ rs', rs' <+: tangledCalls → (rs'.foldl resolveMember { graph := tangle }).active = [] := by
  obtain ⟨hcalls, hactive, -, -⟩ :=
    foldl_resolveMember_returns tangle mem_refs_of_mem_tangledCalls
  exact ⟨mem_refs_of_mem_tangledCalls, hcalls, hactive⟩

end DocGraph.Inheriting
