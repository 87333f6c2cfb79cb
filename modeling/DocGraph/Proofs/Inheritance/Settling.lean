import DocGraph.Proofs.Inheritance.Dependency
import Mathlib.Data.List.Chain

/-!
# Moves of settling

Settling is a run of four kinds of moves. A member that lacks nothing is kept as it is; a member that
needs documentation is begun, and finished later with what its source comes to; a call for a member that
is begun and not finished is reported. The members that are begun depend one on the next, so a run goes
along dependencies only.

Every call of `resolve` is such a run. What holds of a settled member is then shown move by move.
-/

namespace DocGraph.Inheriting

variable {g : ClassGraph} {s s' : Inheriting} {m : Member} {r : MemberRef}

/-! ### Moves -/

/-- A candidate that a search passes over: it is being settled, or has no documentation for good. -/
def Passed (s : Inheriting) (r : MemberRef) : Prop :=
  r ∈ s.active ∨ r ∈ s.settled ∧ ∃ m, s.graph.memberAt? r = some m ∧ m.doc.isEmpty

/-- What a search among candidates comes to. -/
inductive Search (s : Inheriting) : List MemberRef → Option Member → Prop
  | nothing : Search s [] none
  | here {r : MemberRef} {rs : List MemberRef} {src : Member} (hr : r ∈ s.settled)
      (hsrc : s.graph.memberAt? r = some src) (hdoc : ¬src.doc.isEmpty) : Search s (r :: rs) (some src)
  | later {r : MemberRef} {rs : List MemberRef} {src : Option Member} (hr : Passed s r)
      (h : Search s rs src) : Search s (r :: rs) src

/-- A member that is being settled was called for again, which was reported. -/
def Refused (s : Inheriting) (m : Member) : Prop :=
  m.ref ∈ s.active ∧ .warning m.circularDiagnostic ∈ s.journal

/-- What the source of a member comes to, and what is reported about it. -/
inductive Outcome (g : ClassGraph) (s : Inheriting) (m : Member) : Option Member → Journal → Prop
  | missing {t : DocTarget} (ht : m.target? = some t) (h : g.target? m t = none) :
      Outcome g s m none [.warning (m.targetDiagnostic (t.className m) (t.memberName m))]
  | itself {t : DocTarget} {found : Member} (ht : m.target? = some t)
      (h : g.target? m t = some found) (he : found.ref = m.ref) :
      Outcome g s m none [.warning m.selfDiagnostic]
  | target {t : DocTarget} {found src : Member} (ht : m.target? = some t)
      (h : g.target? m t = some found) (hne : found.ref ≠ m.ref)
      (hr : found.ref ∈ s.settled ∨ Refused s found)
      (hsrc : s.graph.memberAt? found.ref = some src) :
      Outcome g s m (some src) [.docInherited m.ref src.ref]
  | found {src : Member} (ht : m.target? = none)
      (h : Search s (candidates g m.ref) (some src)) :
      Outcome g s m (some src) [.docInherited m.ref src.ref]
  | unfound (ht : m.target? = none) (h : Search s (candidates g m.ref) none) :
      Outcome g s m none (if m.inherits.isSome then [.warning m.noSourceDiagnostic] else [])

/-- The graph after a member has taken over what it lacks from its source. -/
def takeOver (g : ClassGraph) (r : MemberRef) (src : Option Member) : ClassGraph :=
  match src with
  | none => g
  | some src => g.modifyMember r (·.inherit src) (Member.ref_inherit · src)

/-- Finish settling a member with its source. -/
def finish (s : Inheriting) (m : Member) (src : Option Member) (j : Journal) : Inheriting where
  graph := takeOver s.graph m.ref src
  settled := m.ref :: s.settled
  active := s.active.filter (· ≠ m.ref)
  journal := s.journal ++ j

/-- The member begun last depends on the one that is to be settled next. If that one is begun itself, it
is called for as a target, since a search passes over it. -/
def Called (g : ClassGraph) (s : Inheriting) (r : MemberRef) : Prop :=
  ∀ a ∈ s.active.head?, g.DependsOn a r ∧ (r ∈ s.active → g.NamesTarget a r)

/-- One move of settling the members of a graph. -/
inductive Move (g : ClassGraph) (s : Inheriting) : Inheriting → Prop
  | keep {m : Member} (hm : g.HasMember m) (hs : m.ref ∉ s.settled) (ha : m.ref ∉ s.active)
      (hn : ¬m.needsDocs) : Move g s (s.settle m.ref)
  | enter {m : Member} (hm : g.HasMember m) (hs : m.ref ∉ s.settled) (ha : m.ref ∉ s.active)
      (hn : m.needsDocs) (hc : Called g s m.ref) : Move g s (s.enter m.ref)
  | circular {m : Member} (hm : g.HasMember m) (ha : m.ref ∈ s.active) (hc : Called g s m.ref) :
      Move g s (s.report (.warning m.circularDiagnostic))
  | finish {m : Member} {rest : List MemberRef} {src : Option Member} {j : Journal}
      (hm : g.HasMember m) (ha : s.active = m.ref :: rest) (ho : Outcome g s m src j) :
      Move g s (s.finish m src j)

/-- Some moves one after the other. -/
abbrev Run (g : ClassGraph) : Inheriting → Inheriting → Prop := Relation.ReflTransGen (Move g)

/-! ### What every state satisfies -/

/-- What holds of the states that settling the members of a graph goes through. -/
structure Sound (g : ClassGraph) (s : Inheriting) : Prop where
  shape : g.SameShape s.graph
  settled_nodup : s.settled.Nodup
  settled_mem : ∀ r ∈ s.settled, r ∈ g.refs
  active_nodup : s.active.Nodup
  active_unsettled : ∀ r ∈ s.active, r ∉ s.settled
  active_needs : ∀ r ∈ s.active, ∃ m, g.HasMember m ∧ m.ref = r ∧ m.needsDocs
  /-- The members begun depend one on the next. -/
  chain : s.active.IsChain fun r a => g.DependsOn a r
  /-- A member that is not settled is as it was. -/
  unsettled : ∀ m, g.HasMember m → m.ref ∉ s.settled → s.graph.memberAt? m.ref = some m

lemma sound_start (g : ClassGraph) : Sound g { graph := g } where
  shape := .refl g
  settled_nodup := .nil
  settled_mem := by simp
  active_nodup := .nil
  active_unsettled := by simp
  active_needs := by simp
  chain := .nil
  unsettled _ hm _ := hm

namespace Sound

lemma exists_memberAt? (hs : Sound g s) (hr : r ∈ g.refs) :
    ∃ m, s.graph.memberAt? r = some m ∧ m.ref = r :=
  hs.shape.exists_memberAt? hr

lemma active_mem (hs : Sound g s) (ha : r ∈ s.active) : r ∈ g.refs := by
  obtain ⟨m, hm, rfl, -⟩ := hs.active_needs r ha
  exact hm.mem_refs

lemma length_active_le (hs : Sound g s) : s.active.length ≤ g.refs.length :=
  hs.active_nodup.length_le_of_subset fun _ ha => hs.active_mem ha

lemma needsDocs (hs : Sound g s) (hm : g.HasMember m) (ha : m.ref ∈ s.active) : m.needsDocs := by
  obtain ⟨m', hm', hr, hn⟩ := hs.active_needs _ ha
  rwa [hm.unique hm' hr] at hn

/-- The member begun last depends on what all those before it are begun for. -/
lemma transGen_head {a x : MemberRef} {rest : List MemberRef} (hs : Sound g s)
    (ha : s.active = a :: rest) (hx : x ∈ rest) : Relation.TransGen g.DependsOn x a := by
  have hchain : (a :: rest).IsChain fun r a => g.DependsOn a r := ha ▸ hs.chain
  clear ha
  induction rest generalizing a with
  | nil => simp at hx
  | cons b rest ih =>
    obtain ⟨hba, hrest⟩ := List.isChain_cons_cons.1 hchain
    rcases List.mem_cons.1 hx with rfl | hx
    · exact .single hba
    · exact (ih hx hrest).tail hba

/-- A finished member leaves the other ones begun as they are. -/
lemma active_finish {rest : List MemberRef} {src : Option Member} {j : Journal} (hs : Sound g s)
    (ha : s.active = m.ref :: rest) : (s.finish m src j).active = rest := by
  have hnodup : (m.ref :: rest).Nodup := ha ▸ hs.active_nodup
  change s.active.filter (· ≠ m.ref) = rest
  rw [ha, List.filter_cons_of_neg (by simp), List.filter_eq_self]
  intro r hr
  simpa using fun hrm : r = m.ref => (List.nodup_cons.1 hnodup).1 (hrm ▸ hr)

lemma memberAt?_finish_of_ne {src : Option Member} {j : Journal} (hs : Sound g s) (hr : r ∈ g.refs)
    (hne : r ≠ m.ref) : (s.finish m src j).graph.memberAt? r = s.graph.memberAt? r := by
  cases src with
  | none => rfl
  | some src =>
    obtain ⟨m', hm', rfl⟩ := hs.exists_memberAt? hr
    rw [finish, takeOver, ClassGraph.memberAt?_modifyMember, hm', Option.map_some, if_neg hne]

/-- A finished member has taken over what it lacks. -/
lemma memberAt?_finish {src : Option Member} {j : Journal} (hs : Sound g s) (hm : g.HasMember m)
    (ha : m.ref ∈ s.active) :
    (s.finish m src j).graph.memberAt? m.ref = some (src.elim m m.inherit) := by
  have hnow := hs.unsettled m hm (hs.active_unsettled _ ha)
  cases src with
  | none => exact hnow
  | some src =>
    rw [finish, takeOver, ClassGraph.memberAt?_modifyMember, hnow, Option.map_some, if_pos rfl]
    rfl

end Sound

/-! ### What one move preserves -/

lemma Sound.settle (hs : Sound g s) (hm : g.HasMember m) (hset : m.ref ∉ s.settled)
    (ha : m.ref ∉ s.active) : Sound g (s.settle m.ref) where
  shape := hs.shape
  settled_nodup := List.nodup_cons.2 ⟨hset, hs.settled_nodup⟩
  settled_mem := List.forall_mem_cons.2 ⟨hm.mem_refs, hs.settled_mem⟩
  active_nodup := hs.active_nodup
  active_unsettled r hr := by
    rintro (_ | ⟨_, hmem⟩)
    · exact ha hr
    · exact hs.active_unsettled r hr hmem
  active_needs := hs.active_needs
  chain := hs.chain
  unsettled m' hm' hset' := hs.unsettled m' hm' fun h => hset' (List.mem_cons_of_mem _ h)

lemma Sound.enter (hs : Sound g s) (hm : g.HasMember m) (hset : m.ref ∉ s.settled)
    (ha : m.ref ∉ s.active) (hn : m.needsDocs) (hc : Called g s m.ref) :
    Sound g (s.enter m.ref) where
  shape := hs.shape
  settled_nodup := hs.settled_nodup
  settled_mem := hs.settled_mem
  active_nodup := List.nodup_cons.2 ⟨ha, hs.active_nodup⟩
  active_unsettled := List.forall_mem_cons.2 ⟨hset, hs.active_unsettled⟩
  active_needs := List.forall_mem_cons.2 ⟨⟨m, hm, rfl, hn⟩, hs.active_needs⟩
  chain := hs.chain.cons fun a ha => (hc a ha).1
  unsettled := hs.unsettled

lemma Sound.finish {rest : List MemberRef} {src : Option Member} {j : Journal} (hs : Sound g s)
    (hm : g.HasMember m) (ha : s.active = m.ref :: rest) : Sound g (s.finish m src j) := by
  have hmem : m.ref ∈ s.active := by simp [ha]
  have hrest : (s.finish m src j).active = rest := hs.active_finish ha
  have hsub : ∀ r ∈ rest, r ∈ s.active := fun r hr => by simp [ha, hr]
  have hnodup : (m.ref :: rest).Nodup := ha ▸ hs.active_nodup
  have hchain : (m.ref :: rest).IsChain fun r a => g.DependsOn a r := ha ▸ hs.chain
  refine { shape := ?_, settled_nodup := ?_, settled_mem := ?_, active_nodup := ?_,
           active_unsettled := ?_, active_needs := ?_, chain := ?_, unsettled := ?_ }
  · cases src with
    | none => exact hs.shape
    | some src => exact hs.shape.modifyMember m.ref (Member.ref_inherit · src)
  · exact List.nodup_cons.2 ⟨hs.active_unsettled _ hmem, hs.settled_nodup⟩
  · exact List.forall_mem_cons.2 ⟨hm.mem_refs, hs.settled_mem⟩
  · exact hrest ▸ (List.nodup_cons.1 hnodup).2
  · rw [hrest]
    rintro r hr (_ | ⟨_, hset⟩)
    · exact (List.nodup_cons.1 hnodup).1 hr
    · exact hs.active_unsettled r (hsub r hr) hset
  · rw [hrest]
    exact fun r hr => hs.active_needs r (hsub r hr)
  · exact hrest ▸ hchain.tail
  · intro m' hm' hset
    obtain ⟨hne, hset⟩ := not_or.1 (fun h => hset (List.mem_cons.2 h))
    rw [hs.memberAt?_finish_of_ne hm'.mem_refs hne]
    exact hs.unsettled m' hm' hset

lemma Move.sound (h : Move g s s') (hs : Sound g s) : Sound g s' := by
  cases h with
  | keep hm hset ha hn => exact hs.settle hm hset ha
  | enter hm hset ha hn hc => exact hs.enter hm hset ha hn hc
  | circular hm ha hc => exact { hs with }
  | finish hm ha ho => exact hs.finish hm ha

/-- What is settled stays as it is. -/
def Keeps (s s' : Inheriting) : Prop :=
  ∀ r ∈ s.settled, r ∈ s'.settled ∧ s'.graph.memberAt? r = s.graph.memberAt? r

lemma Keeps.refl (s : Inheriting) : Keeps s s := fun _ hr => ⟨hr, rfl⟩

lemma Keeps.trans {s₁ s₂ s₃ : Inheriting} (h : Keeps s₁ s₂) (h' : Keeps s₂ s₃) : Keeps s₁ s₃ := by
  intro r hr
  obtain ⟨hr', heq⟩ := h r hr
  obtain ⟨hr'', heq'⟩ := h' r hr'
  exact ⟨hr'', heq'.trans heq⟩

lemma Move.keeps (h : Move g s s') (hs : Sound g s) : Keeps s s' := by
  intro r hr
  cases h with
  | keep hm hset ha hn => exact ⟨List.mem_cons_of_mem _ hr, rfl⟩
  | enter hm hset ha hn hc => exact ⟨hr, rfl⟩
  | circular hm ha hc => exact ⟨hr, rfl⟩
  | @finish m rest src j hm ha ho =>
    have hne : r ≠ m.ref := fun h => hs.active_unsettled m.ref (by simp [ha]) (h ▸ hr)
    exact ⟨List.mem_cons_of_mem _ hr, hs.memberAt?_finish_of_ne (hs.settled_mem r hr) hne⟩

/-! ### What a run preserves -/

lemma Run.sound (h : Run g s s') (hs : Sound g s) : Sound g s' := by
  induction h with
  | refl => exact hs
  | tail _ hmove ih => exact hmove.sound ih

/-- What single moves preserve holds after a run. -/
lemma Run.preserves {P : Inheriting → Prop} (h : Run g s s') (hs : Sound g s) (hp : P s)
    (hstep : ∀ s s', Sound g s → P s → Move g s s' → P s') : P s' := by
  induction h with
  | refl => exact hp
  | tail hrun hmove ih => exact hstep _ _ (Run.sound hrun hs) ih hmove

lemma Run.keeps (h : Run g s s') (hs : Sound g s) : Keeps s s' :=
  h.preserves hs (.refl s) fun _ _ hs hk hmove => hk.trans (hmove.keeps hs)

end DocGraph.Inheriting
