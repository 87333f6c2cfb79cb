import DocGraph.Proofs.Inheritance.Nesting
import DocGraph.Proofs.Inheritance.Report
import Mathlib.Data.List.Cycle

/-!
# Loops of targets

Targets may lead from member to member back to where they began. If no member of such a loop is documented,
none can come to be: each takes over from the next one. The loop can be entered at any member, by a target or
by a search of another one. Since only its target decides where a member goes, the first call for one of the
members goes round the loop, is refused where it came in, and has settled the loop when it returns.

So calls keep that a loop is as it was, or settled as a whole and reported once.
-/

namespace DocGraph

namespace ClassGraph

variable {g : ClassGraph} {m : Member} {r r' : MemberRef} {loop rest : List MemberRef}

/-- Members without documentation whose targets lead from one to the next and from the last to the first. A
member that names itself is one, too. -/
structure IsTargetLoop (g : ClassGraph) (loop : List MemberRef) : Prop where
  ne_nil : loop ≠ []
  nodup : loop.Nodup
  chain : (loop : Cycle MemberRef).Chain g.NamesTarget
  undocumented : ∀ r ∈ loop, ∀ m ∈ g.memberAt? r, m.doc = ""

namespace IsTargetLoop

/-- A loop may be entered at each of its members. -/
lemma exists_isRotated (hr : r ∈ loop) : ∃ rest, loop ~r r :: rest := by
  obtain ⟨before, after, rfl⟩ := List.append_of_mem hr
  exact ⟨after ++ before, List.isRotated_append⟩

lemma isChain (h : g.IsTargetLoop loop) (hl : loop ~r r :: rest) :
    (r :: rest ++ [r]).IsChain g.NamesTarget := by
  have hchain := h.chain
  rwa [Cycle.coe_eq_coe.2 hl, Cycle.chain_coe_cons] at hchain

lemma mem_refs (h : g.IsTargetLoop loop) (hr : r ∈ loop) : r ∈ g.refs := by
  obtain ⟨rest, hl⟩ := exists_isRotated hr
  obtain ⟨-, -, hback⟩ := List.isChain_append.1 (h.isChain hl)
  exact (hback _ (List.getLast?_eq_some_getLast (List.cons_ne_nil r rest)) r rfl).mem_refs

end IsTargetLoop

/-- What a member names as its target, once it is known to be a member. -/
lemma NamesTarget.exists_hasMember (h : g.NamesTarget r r') (hr : r ∈ g.refs) :
    ∃ m t, g.HasMember m ∧ m.ref = r ∧ m.target? = some t ∧
      (g.target? m t).map Member.ref = some r' := by
  obtain ⟨m, hm, t, ht, hfound⟩ := h
  obtain ⟨m', hm', rfl⟩ := ClassGraph.mem_refs.1 hr
  obtain rfl := Option.some.inj (hm'.symm.trans hm)
  exact ⟨m', t, hm', rfl, ht, hfound⟩

end ClassGraph

/-! ### Reports -/

namespace Journal

/-- How many cycles are reported of some members. -/
def cyclesOf (loop : List MemberRef) (j : Journal) : Nat :=
  j.reports fun d => d.kind = .structuralCycle ∧ ∃ r ∈ loop, d.Names r

@[simp] lemma cyclesOf_append (loop : List MemberRef) (j k : Journal) :
    (j ++ k).cyclesOf loop = j.cyclesOf loop + k.cyclesOf loop :=
  reports_append ..

lemma cyclesOf_warning (loop : List MemberRef) (d : Diagnostic) :
    cyclesOf loop [.warning d] =
      if d.kind = .structuralCycle ∧ ∃ r ∈ loop, d.Names r then 1 else 0 :=
  reports_warning ..

@[simp] lemma cyclesOf_docInherited (loop : List MemberRef) (r r' : MemberRef) :
    cyclesOf loop [.docInherited r r'] = 0 := rfl

@[simp] lemma cyclesOf_circularDiagnostic (loop : List MemberRef) (m : Member) :
    cyclesOf loop [.warning m.circularDiagnostic] = if m.ref ∈ loop then 1 else 0 := by
  have hkind : m.circularDiagnostic.kind = .structuralCycle := rfl
  simp [cyclesOf_warning, hkind]

@[simp] lemma cyclesOf_selfDiagnostic (loop : List MemberRef) (m : Member) :
    cyclesOf loop [.warning m.selfDiagnostic] = if m.ref ∈ loop then 1 else 0 := by
  have hkind : m.selfDiagnostic.kind = .structuralCycle := rfl
  simp [cyclesOf_warning, hkind]

lemma cyclesOf_eq_zero {d : Diagnostic} (hd : d.kind = .unresolvedReference) (loop : List MemberRef) :
    cyclesOf loop [.warning d] = 0 := by
  have hkind : DiagnosticKind.unresolvedReference ≠ .structuralCycle := by decide
  rw [cyclesOf_warning, hd, if_neg fun h => hkind h.1]

end Journal

namespace Inheriting

variable {g : ClassGraph} {s s' s₁ : Inheriting} {m src : Member} {r e x y : MemberRef} {t : DocTarget}
  {loop rs xs ys begun left : List MemberRef} {o : Option MemberRef} {depth : Nat} {call : Calls}

/-! ### One call -/

lemma FindsSource.eq_explicitSource (h : FindsSource call m s o s' xs) (ht : m.target? = some t) :
    explicitSource m t s = (o, s') := by
  cases h with
  | target ht' =>
    obtain rfl := Option.some.inj (ht.symm.trans ht')
    rfl
  | found ht' => simp [ht] at ht'
  | unfound ht' => simp [ht] at ht'

lemma explicitSource_eq (h : (s.graph.target? m t).map Member.ref = some y) :
    explicitSource m t s =
      if y = m.ref then (none, s.report (.warning m.selfDiagnostic)) else (some y, s) := by
  obtain ⟨found, hfound, rfl⟩ := Option.map_eq_some_iff.1 h
  rw [explicitSource, hfound]

/-- A call for a member that names a target goes on to the target and nowhere else. -/
lemma ReturnsWithin.of_target (h : ReturnsWithin depth m.ref s s' xs)
    (hm : s.graph.memberAt? m.ref = some m) (hset : m.ref ∉ s.settled) (ha : m.ref ∉ s.active)
    (ht : m.target? = some t) (hy : (s.graph.target? m t).map Member.ref = some y) :
    y = m.ref ∧ s' = ((s.enter m.ref).report (.warning m.selfDiagnostic)).leave m.ref ∨
      y ≠ m.ref ∧ ∃ depth s₁ ys, ReturnsWithin depth y (s.enter m.ref) s₁ ys ∧
        s' = (copy m.ref y s₁).leave m.ref := by
  have hn : m.needsDocs := by simp [Member.needsDocs, Member.inherits_isSome ht]
  have hsource := explicitSource_eq (s := s.enter m.ref) hy
  obtain _ | depth := depth
  · exact h.elim
  cases h with
  | missing hm' => simp [hm] at hm'
  | settled _ hset' => exact absurd hset' hset
  | kept hm' _ hn' =>
    obtain rfl := Option.some.inj (hm.symm.trans hm')
    exact absurd hn hn'
  | refused _ _ _ ha' => exact absurd ha' ha
  | unfilled hm' _ _ _ hfind =>
    obtain rfl := Option.some.inj (hm.symm.trans hm')
    rw [hfind.eq_explicitSource ht] at hsource
    split at hsource
    · next hself =>
      obtain ⟨-, rfl⟩ := Prod.mk.inj hsource
      exact .inl ⟨hself, rfl⟩
    · simp at hsource
  | filled hm' _ _ _ hfind hcall =>
    obtain rfl := Option.some.inj (hm.symm.trans hm')
    rw [hfind.eq_explicitSource ht] at hsource
    split at hsource
    · simp at hsource
    · next hself =>
      obtain ⟨hsrc, rfl⟩ := Prod.mk.inj hsource
      obtain rfl := Option.some.inj hsrc
      exact .inr ⟨hself, depth, _, _, hcall, rfl⟩

lemma copy_eq (x : MemberRef) (hy : s.graph.memberAt? y = some src) :
    copy x y s = { s with
      graph := s.graph.modifyMember x (·.inherit src) (Member.ref_inherit · src)
      journal := s.journal ++ [.docInherited x src.ref] } := by
  rw [copy, hy]

lemma copy_eq_self (x : MemberRef) (hy : s.graph.memberAt? y = none) : copy x y s = s := by
  rw [copy, hy]

lemma memberAt?_copy (hm : s.graph.memberAt? m.ref = some m) (hy : s.graph.memberAt? y = some src) :
    (copy m.ref y s).graph.memberAt? m.ref = some (m.inherit src) := by
  rw [copy_eq m.ref hy, ClassGraph.memberAt?_modifyMember, hm, Option.map_some, if_pos rfl]

/-! ### Members that are left alone -/

/-- Some members of a graph are left alone: they are not changed, begun or settled. -/
structure Spares (g : ClassGraph) (rs : List MemberRef) (s s' : Inheriting) : Prop where
  shape : g.SameShape s'.graph
  member : ∀ r ∈ rs, s'.graph.memberAt? r = s.graph.memberAt? r
  settled : ∀ r ∈ rs, r ∈ s'.settled ↔ r ∈ s.settled
  active : ∀ r ∈ rs, r ∈ s'.active → r ∈ s.active

namespace Spares

lemma trans (h : Spares g rs s s₁) (h' : Spares g rs s₁ s') : Spares g rs s s' where
  shape := h'.shape
  member r hr := (h'.member r hr).trans (h.member r hr)
  settled r hr := (h'.settled r hr).trans (h.settled r hr)
  active r hr ha := h.active r hr (h'.active r hr ha)

lemma report (hs : g.SameShape s.graph) (e : Event) : Spares g rs s (s.report e) :=
  ⟨hs, fun _ _ => rfl, fun _ _ => Iff.rfl, fun _ _ => id⟩

lemma settle (hs : g.SameShape s.graph) (hx : x ∉ rs) : Spares g rs s (s.settle x) where
  shape := hs
  member _ _ := rfl
  settled r hr := by
    have hne : r ≠ x := fun h => hx (h ▸ hr)
    simp [Inheriting.settle, hne]
  active _ _ := id

lemma enter (hs : g.SameShape s.graph) (hx : x ∉ rs) : Spares g rs s (s.enter x) where
  shape := hs
  member _ _ := rfl
  settled _ _ := Iff.rfl
  active _ hr ha := (List.mem_cons.1 ha).resolve_left fun h => hx (h ▸ hr)

lemma leave (hs : g.SameShape s.graph) (hx : x ∉ rs) : Spares g rs s (s.leave x) where
  shape := hs
  member _ _ := rfl
  settled r hr := by
    have hne : r ≠ x := fun h => hx (h ▸ hr)
    simp [Inheriting.leave, hne]
  active _ _ ha := List.mem_of_mem_filter ha

lemma copy (hs : g.SameShape s.graph) (hrs : ∀ r ∈ rs, r ∈ g.refs) (hx : x ∉ rs) (y : MemberRef) :
    Spares g rs s (Inheriting.copy x y s) := by
  cases hy : s.graph.memberAt? y with
  | none =>
    rw [copy_eq_self x hy]
    exact ⟨hs, fun _ _ => rfl, fun _ _ => Iff.rfl, fun _ _ => id⟩
  | some src =>
    rw [copy_eq x hy]
    refine ⟨hs.modifyMember x (Member.ref_inherit · src), fun r hr => ?_, fun _ _ => Iff.rfl, fun _ _ => id⟩
    obtain ⟨m, hm, rfl⟩ := hs.exists_memberAt? (hrs r hr)
    have hne : m.ref ≠ x := fun h => hx (h ▸ hr)
    rw [ClassGraph.memberAt?_modifyMember, hm, Option.map_some, if_neg hne]

end Spares

@[simp] lemma cyclesOf_copy (loop : List MemberRef) (x y : MemberRef) (s : Inheriting) :
    (copy x y s).journal.cyclesOf loop = s.journal.cyclesOf loop := by
  cases hy : s.graph.memberAt? y with
  | none => rw [copy_eq_self x hy]
  | some src => simp [copy_eq x hy]

/-- A member is as it was, and not settled. -/
structure IsFresh (g : ClassGraph) (s : Inheriting) (r : MemberRef) : Prop where
  member : s.graph.memberAt? r = g.memberAt? r
  unsettled : r ∉ s.settled

/-- A member is settled without documentation. -/
structure IsBare (s : Inheriting) (r : MemberRef) : Prop where
  settled : r ∈ s.settled
  doc : ∃ m, s.graph.memberAt? r = some m ∧ m.doc = ""

lemma Spares.isFresh (h : Spares g rs s s') (hr : r ∈ rs) (hf : IsFresh g s r) : IsFresh g s' r :=
  ⟨(h.member r hr).trans hf.member, (h.settled r hr).not.2 hf.unsettled⟩

lemma Spares.isBare (h : Spares g rs s s') (hr : r ∈ rs) (hb : IsBare s r) : IsBare s' r := by
  obtain ⟨m, hm, hdoc⟩ := hb.doc
  exact ⟨(h.settled r hr).2 hb.settled, m, (h.member r hr).trans hm, hdoc⟩

/-! ### Round the loop -/

/-- A call goes round a loop, into which it came at `e`. -/
structure GoesRound (g : ClassGraph) (loop begun left : List MemberRef) (e : MemberRef)
    (s : Inheriting) : Prop where
  shape : g.SameShape s.graph
  rotated : loop ~r begun ++ left
  entry : (begun ++ left).head? = some e
  chain : (left ++ [e]).IsChain g.NamesTarget
  begun : ∀ r ∈ begun, IsFresh g s r ∧ r ∈ s.active
  left : ∀ r ∈ left, IsFresh g s r ∧ r ∉ s.active

/-- A call comes back from its way round a loop, on which it was refused once. -/
structure ComesBack (g : ClassGraph) (loop begun left : List MemberRef) (s s' : Inheriting) :
    Prop where
  shape : g.SameShape s'.graph
  begun : ∀ r ∈ begun, IsFresh g s' r
  left : ∀ r ∈ left, IsBare s' r
  cycles : s'.journal.cyclesOf loop = s.journal.cyclesOf loop + 1

namespace GoesRound

lemma mem_loop (h : GoesRound g loop begun left e s) (hr : r ∈ begun ++ left) : r ∈ loop :=
  h.rotated.mem_iff.2 hr

lemma nodup (h : GoesRound g loop begun left e s) (hl : g.IsTargetLoop loop) :
    (begun ++ left).Nodup :=
  h.rotated.nodup_iff.1 hl.nodup

lemma enter (h : GoesRound g loop begun (x :: left) e s) (hl : g.IsTargetLoop loop) :
    GoesRound g loop (begun ++ [x]) left e (s.enter x) where
  shape := h.shape
  rotated := by simpa using h.rotated
  entry := by simpa using h.entry
  chain := h.chain.tail
  begun r hr := by
    rcases List.mem_append.1 hr with hr | hr
    · obtain ⟨hf, ha⟩ := h.begun r hr
      exact ⟨⟨hf.member, hf.unsettled⟩, List.mem_cons_of_mem _ ha⟩
    · obtain rfl := List.mem_singleton.1 hr
      obtain ⟨hf, -⟩ := h.left r (List.mem_cons_self ..)
      exact ⟨⟨hf.member, hf.unsettled⟩, List.mem_cons_self ..⟩
  left r hr := by
    obtain ⟨hf, ha⟩ := h.left r (List.mem_cons_of_mem _ hr)
    obtain ⟨hx, -⟩ := List.nodup_cons.1 (List.nodup_append'.1 (h.nodup hl)).2.1
    have hne : r ≠ x := fun he => hx (he ▸ hr)
    exact ⟨⟨hf.member, hf.unsettled⟩, fun hmem => (List.mem_cons.1 hmem).elim hne ha⟩

lemma namesTarget (h : GoesRound g loop begun (x :: left) e s) : g.NamesTarget x (left.headD e) := by
  have hchain := h.chain
  cases left with
  | nil => simpa using hchain
  | cons y left => exact (List.isChain_cons_cons.1 hchain).1

end GoesRound

/-- A member of a loop that is begun is refused. -/
lemma ReturnsWithin.of_active (h : ReturnsWithin depth m.ref s s' xs)
    (hm : s.graph.memberAt? m.ref = some m) (hset : m.ref ∉ s.settled) (ha : m.ref ∈ s.active)
    (hn : m.needsDocs) : s' = s.report (.warning m.circularDiagnostic) := by
  obtain _ | depth := depth
  · exact h.elim
  cases h with
  | missing hm' => simp [hm] at hm'
  | settled _ hset' => exact absurd hset' hset
  | kept hm' _ hn' =>
    obtain rfl := Option.some.inj (hm.symm.trans hm')
    exact absurd hn hn'
  | refused hm' =>
    obtain rfl := Option.some.inj (hm.symm.trans hm')
    rfl
  | unfilled _ _ _ ha' => exact absurd ha ha'
  | filled _ _ _ ha' => exact absurd ha ha'

lemma ComesBack.exists_source (h : ComesBack g loop begun left s s')
    (hl : g.IsTargetLoop loop) (hloop : e ∈ loop) (he : left = [] → e ∈ begun) :
    ∃ src, s'.graph.memberAt? (left.headD e) = some src ∧ src.doc = "" := by
  cases left with
  | nil =>
    obtain ⟨m, hm, rfl⟩ := ClassGraph.mem_refs.1 (hl.mem_refs hloop)
    exact ⟨m, (h.begun _ (he rfl)).member.trans hm, hl.undocumented _ hloop m hm⟩
  | cons y left => exact (h.left y (List.mem_cons_self ..)).doc

namespace GoesRound

lemma mem_entry (h : GoesRound g loop begun left e s) : e ∈ loop :=
  h.mem_loop (List.mem_of_head? h.entry)

lemma not_mem (h : GoesRound g loop begun (x :: left) e s) (hl : g.IsTargetLoop loop) :
    x ∉ begun ++ left :=
  (List.nodup_cons.1 (List.nodup_middle.1 (h.nodup hl))).1

lemma mem_refs (h : GoesRound g loop begun (x :: left) e s) (hl : g.IsTargetLoop loop)
    (hr : r ∈ begun ++ left) : r ∈ g.refs :=
  hl.mem_refs (h.mem_loop (List.mem_append.2 ((List.mem_append.1 hr).imp_right (List.mem_cons_of_mem x))))

/-- The way round goes on with a member whose target is the one after it. -/
lemma exists_next (h : GoesRound g loop begun (x :: left) e s) (hl : g.IsTargetLoop loop) :
    ∃ m t, g.HasMember m ∧ m.ref = x ∧ m.target? = some t ∧
      (s.graph.target? m t).map Member.ref = some (left.headD e) := by
  obtain ⟨m, t, hm, hx, ht, hfound⟩ := h.namesTarget.exists_hasMember (hl.mem_refs (h.mem_loop (by simp)))
  exact ⟨m, t, hm, hx, ht, (h.shape.target?_ref m t).trans hfound⟩

/-- Where it came in, the call is refused. -/
lemma comesBack_refused (h : GoesRound g loop begun [] m.ref s) :
    ComesBack g loop begun [] s (s.report (.warning m.circularDiagnostic)) where
  shape := h.shape
  begun r hr := (Spares.report h.shape _).isFresh hr (h.begun r hr).1
  left := by simp
  cycles := by simp [report, h.mem_entry]

/-- A member that names itself is the last one that is left. -/
lemma eq_nil_of_itself (h : GoesRound g loop begun (x :: left) e s) (hl : g.IsTargetLoop loop)
    (hself : left.headD e = x) : left = [] := by
  cases left with
  | nil => rfl
  | cons y left =>
    obtain rfl : y = x := hself
    exact absurd (by simp) (h.not_mem hl)

lemma comesBack_itself (h : GoesRound g loop begun [m.ref] e s) (hl : g.IsTargetLoop loop)
    (hm : g.HasMember m) :
    ComesBack g loop begun [m.ref] s
      (((s.enter m.ref).report (.warning m.selfDiagnostic)).leave m.ref) := by
  have hloop : m.ref ∈ loop := h.mem_loop (by simp)
  have hbegun : m.ref ∉ begun := by simpa using h.not_mem hl
  have henter := Spares.enter h.shape hbegun
  have hreport := henter.trans (.report henter.shape (.warning m.selfDiagnostic))
  have hspares := hreport.trans (.leave hreport.shape hbegun)
  refine ⟨h.shape, fun r hr => hspares.isFresh hr (h.begun r hr).1, ?_, ?_⟩
  · rw [List.forall_mem_singleton]
    obtain ⟨hfresh, -⟩ := h.left m.ref (List.mem_singleton_self _)
    exact ⟨List.mem_cons_self .., m, hfresh.member.trans hm, hl.undocumented _ hloop m hm⟩
  · simp [Inheriting.leave, report, Inheriting.enter, hloop]

/-- A member whose target has come back takes over from it what is not there. -/
lemma comesBack_copy (h : GoesRound g loop begun (m.ref :: left) e s) (hl : g.IsTargetLoop loop)
    (hm : g.HasMember m) (hback : ComesBack g loop (begun ++ [m.ref]) left (s.enter m.ref) s₁) :
    ComesBack g loop begun (m.ref :: left) s ((copy m.ref (left.headD e) s₁).leave m.ref) := by
  have hdoc : m.doc = "" := hl.undocumented _ (h.mem_loop (by simp)) m hm
  have hsame : s₁.graph.memberAt? m.ref = some m := (hback.begun m.ref (by simp)).member.trans hm
  obtain ⟨src, hsrc, hsrcdoc⟩ := hback.exists_source hl h.mem_entry fun hnil => by
    simpa [hnil] using List.mem_of_head? h.entry
  have hspares : Spares g (begun ++ left) s₁ ((copy m.ref (left.headD e) s₁).leave m.ref) := by
    have hcopy := Spares.copy hback.shape (fun _ => h.mem_refs hl) (h.not_mem hl) (left.headD e)
    exact hcopy.trans (.leave hcopy.shape (h.not_mem hl))
  refine ⟨hspares.shape, ?_, List.forall_mem_cons.2 ⟨?_, ?_⟩, ?_⟩
  · exact fun r hr => hspares.isFresh (by simp [hr]) (hback.begun r (by simp [hr]))
  · exact ⟨List.mem_cons_self .., _, memberAt?_copy hsame hsrc, by simp [Member.inherit, hsrcdoc, hdoc]⟩
  · exact fun r hr => hspares.isBare (by simp [hr]) (hback.left r hr)
  · exact (cyclesOf_copy ..).trans hback.cycles

end GoesRound

/-- A call that goes round a loop comes back from it. -/
lemma ReturnsWithin.comesBack (h : ReturnsWithin depth (left.headD e) s s' xs)
    (hl : g.IsTargetLoop loop) (hr : GoesRound g loop begun left e s) :
    ComesBack g loop begun left s s' := by
  -- the members that are left get fewer, and those that are begun more
  induction left generalizing depth begun s s' xs with
  | nil =>
    obtain ⟨m, hm, rfl⟩ := ClassGraph.mem_refs.1 (hl.mem_refs hr.mem_entry)
    have hdoc : m.doc = "" := hl.undocumented _ hr.mem_entry m hm
    obtain ⟨hf, ha⟩ := hr.begun m.ref (List.mem_of_head? (by simpa using hr.entry))
    obtain rfl := h.of_active (hf.member.trans hm) hf.unsettled ha (by simp [Member.needsDocs, hdoc])
    exact hr.comesBack_refused
  | cons x left ih =>
    obtain ⟨m, t, hm, rfl, ht, hfound⟩ := hr.exists_next hl
    obtain ⟨hf, ha⟩ := hr.left m.ref (List.mem_cons_self ..)
    rcases ReturnsWithin.of_target h (hf.member.trans hm) hf.unsettled ha ht hfound with
      ⟨hself, rfl⟩ | ⟨-, depth, s₁, ys, hcall, rfl⟩
    · obtain rfl := hr.eq_nil_of_itself hl hself
      exact hr.comesBack_itself hl hm
    · exact hr.comesBack_copy hl hm (ih hcall (hr.enter hl))

/-! ### Calls from anywhere -/

/-- Between calls, a loop is as it was, or settled as a whole and reported once. -/
structure KeepsLoop (g : ClassGraph) (loop : List MemberRef) (s : Inheriting) : Prop where
  shape : g.SameShape s.graph
  whole : (∀ r ∈ loop, IsFresh g s r ∧ r ∉ s.active) ∧ s.journal.cyclesOf loop = 0 ∨
    (∀ r ∈ loop, IsBare s r) ∧ s.journal.cyclesOf loop = 1

lemma KeepsLoop.spares (h : KeepsLoop g loop s) (hs : Spares g loop s s')
    (hj : s'.journal.cyclesOf loop = s.journal.cyclesOf loop) : KeepsLoop g loop s' where
  shape := hs.shape
  whole := by
    rw [hj]
    refine h.whole.imp (fun ⟨hfresh, hcycles⟩ => ⟨fun r hr => ?_, hcycles⟩)
      (fun ⟨hbare, hcycles⟩ => ⟨fun r hr => hs.isBare hr (hbare r hr), hcycles⟩)
    exact ⟨hs.isFresh hr (hfresh r hr).1, fun ha => (hfresh r hr).2 (hs.active r hr ha)⟩

lemma KeepsLoop.report (h : KeepsLoop g loop s) {d : Diagnostic}
    (hd : Journal.cyclesOf loop [.warning d] = 0) : KeepsLoop g loop (s.report (.warning d)) :=
  h.spares (.report h.shape _) (by rw [Inheriting.report, Journal.cyclesOf_append, hd, Nat.add_zero])

/-- Calls for members of the graph keep a loop. -/
def KeepLoop (g : ClassGraph) (loop : List MemberRef) (call : Calls) : Prop :=
  ∀ r s s' xs, call r s s' xs → r ∈ g.refs → KeepsLoop g loop s → KeepsLoop g loop s'

lemma LooksThrough.mem (h : LooksThrough call rs s o s' xs) : ∀ r ∈ o, r ∈ rs := by
  induction h with
  | nothing => simp
  | passed _ _ ih => exact fun r hr => List.mem_cons_of_mem _ (ih r hr)
  | documented => simp
  | undocumented _ _ _ _ ih => exact fun r hr => List.mem_cons_of_mem _ (ih r hr)

lemma LooksThrough.keepsLoop (h : LooksThrough call rs s o s' xs)
    (hcall : KeepLoop g loop call) (hrs : ∀ r ∈ rs, r ∈ g.refs) (hk : KeepsLoop g loop s) :
    KeepsLoop g loop s' := by
  induction h with
  | nothing => exact hk
  | passed _ _ ih => exact ih (List.forall_mem_cons.1 hrs).2 hk
  | documented _ h => exact hcall _ _ _ _ h (List.forall_mem_cons.1 hrs).1 hk
  | undocumented _ h _ _ ih =>
    obtain ⟨hr, hrs⟩ := List.forall_mem_cons.1 hrs
    exact ih hrs (hcall _ _ _ _ h hr hk)

lemma explicitSource_keepsLoop (hm : m.ref ∉ loop) (hk : KeepsLoop g loop s) :
    KeepsLoop g loop (explicitSource m t s).2 := by
  rw [explicitSource]
  split
  · exact hk.report (Journal.cyclesOf_eq_zero rfl loop)
  · split
    · exact hk.report (by simp [hm])
    · exact hk

lemma FindsSource.keepsLoop (h : FindsSource call m s o s' xs) (hcall : KeepLoop g loop call)
    (hm : m.ref ∉ loop) (hk : KeepsLoop g loop s) :
    KeepsLoop g loop s' ∧ ∀ r ∈ o, r ∈ g.refs := by
  have hcands : ∀ r ∈ candidates s.graph m.ref, r ∈ g.refs := fun r hr =>
    hk.shape.refs_eq ▸ ClassGraph.mem_refs_of_mem_candidates hr
  cases h with
  | target => exact ⟨explicitSource_keepsLoop hm hk, fun r hr => mem_refs_of_explicitSource hk.shape hr⟩
  | found _ h => exact ⟨h.keepsLoop hcall hcands hk, fun r hr => hcands r (h.mem r hr)⟩
  | unfound _ h =>
    refine ⟨?_, by simp⟩
    split
    · exact (h.keepsLoop hcall hcands hk).report (Journal.cyclesOf_eq_zero rfl loop)
    · exact h.keepsLoop hcall hcands hk

/-- A call for a member outside a loop keeps the loop if the calls that it makes do. -/
lemma Resolves.keepsLoop (h : Resolves call r s s' xs) (hl : g.IsTargetLoop loop)
    (hcall : KeepLoop g loop call) (hr : r ∈ g.refs) (hloop : r ∉ loop) (hk : KeepsLoop g loop s) :
    KeepsLoop g loop s' := by
  obtain ⟨m₀, hm₀, rfl⟩ := hk.shape.exists_memberAt? hr
  have hentered : KeepsLoop g loop (s.enter m₀.ref) := hk.spares (.enter hk.shape hloop) rfl
  cases h with
  | missing => exact hk
  | settled => exact hk
  | kept => exact hk.spares (.settle hk.shape hloop) rfl
  | refused hm =>
    obtain rfl := Option.some.inj (hm₀.symm.trans hm)
    exact hk.report (by simp [hloop])
  | unfilled hm _ _ _ hfind =>
    obtain rfl := Option.some.inj (hm₀.symm.trans hm)
    obtain ⟨hfound, -⟩ := hfind.keepsLoop hcall hloop hentered
    exact hfound.spares (.leave hfound.shape hloop) rfl
  | @filled _ src _ _ _ _ hm _ _ _ hfind hsource =>
    obtain rfl := Option.some.inj (hm₀.symm.trans hm)
    obtain ⟨hfound, hsrc⟩ := hfind.keepsLoop hcall hloop hentered
    have hcalled := hcall _ _ _ _ hsource (hsrc _ rfl) hfound
    have hcopied := hcalled.spares (.copy hcalled.shape (fun _ => hl.mem_refs) hloop src)
      (cyclesOf_copy loop m₀.ref src _)
    exact hcopied.spares (.leave hcopied.shape hloop) rfl

lemma Resolves.of_settled (h : Resolves call r s s' xs) (hset : r ∈ s.settled) : s' = s := by
  cases h with
  | missing => rfl
  | settled => rfl
  | kept _ hset' => exact absurd hset hset'
  | refused _ hset' => exact absurd hset hset'
  | unfilled _ hset' => exact absurd hset hset'
  | filled _ hset' => exact absurd hset hset'

/-- All calls keep a loop: those for its members go round it or find it settled. -/
theorem keepLoop_returnsWithin (hl : g.IsTargetLoop loop) (depth : Nat) :
    KeepLoop g loop (ReturnsWithin depth) := by
  induction depth with
  | zero => exact fun _ _ _ _ h => h.elim
  | succ depth ih =>
    intro r s s' xs h hr hk
    by_cases hloop : r ∈ loop
    · rcases hk.whole with ⟨hfresh, hnone⟩ | ⟨hbare, -⟩
      · obtain ⟨rest, hrotated⟩ := ClassGraph.IsTargetLoop.exists_isRotated hloop
        have hround : GoesRound g loop [] (r :: rest) r s :=
          { shape := hk.shape
            rotated := hrotated
            entry := rfl
            chain := hl.isChain hrotated
            begun := by simp
            left := fun x hx => hfresh x (hrotated.mem_iff.2 hx) }
        have hback : ComesBack g loop [] (r :: rest) s s' := ReturnsWithin.comesBack h hl hround
        refine ⟨hback.shape, .inr ⟨fun x hx => hback.left x (hrotated.mem_iff.1 hx), ?_⟩⟩
        rw [hback.cycles, hnone]
      · obtain rfl := Resolves.of_settled h (hbare r hloop).settled
        exact hk
    · exact Resolves.keepsLoop h hl ih hr hloop hk

lemma ReturnInTurn.keepsLoop (h : ReturnInTurn depth rs s s' xs)
    (hl : g.IsTargetLoop loop) (hrs : ∀ r ∈ rs, r ∈ g.refs) (hk : KeepsLoop g loop s) :
    KeepsLoop g loop s' := by
  induction h with
  | nil => exact hk
  | cons h _ ih =>
    obtain ⟨hr, hrs⟩ := List.forall_mem_cons.1 hrs
    exact ih hrs (keepLoop_returnsWithin hl _ _ _ _ _ h hr hk)

end Inheriting

namespace ClassGraph

open Inheriting

variable {g : ClassGraph} {loop rs : List MemberRef}

/-- Some members have no documentation, and one cycle is reported of them. -/
structure ClosesLoop (loop : List MemberRef) (s : Inheriting) : Prop where
  doc_eq : ∀ r ∈ loop, ∃ m, s.graph.memberAt? r = some m ∧ m.doc = ""
  cycles : s.journal.cyclesOf loop = 1

lemma IsTargetLoop.closesLoop (hl : g.IsTargetLoop loop) (hrs : ∀ r ∈ rs, r ∈ g.refs)
    (hcalled : ∃ r ∈ loop, r ∈ rs) : ClosesLoop loop (rs.foldl resolveMember { graph := g }) := by
  have hstart : KeepsLoop g loop { graph := g } :=
    ⟨.refl g, .inl ⟨fun r _ => ⟨⟨rfl, by simp⟩, by simp⟩, rfl⟩⟩
  obtain ⟨_, hreturns, -⟩ :=
    exists_returnInTurn (s := { graph := g }) (g := g) ⟨.refl g, .nil, by simp⟩ rfl hrs
  obtain ⟨-, -, hall⟩ := run_foldl_resolveMember (sound_start g) rfl hrs
  rcases (hreturns.keepsLoop hl hrs hstart).whole with ⟨hfresh, -⟩ | ⟨hbare, hcycles⟩
  · obtain ⟨r, hr, hmem⟩ := hcalled
    exact absurd (hall r hmem) (hfresh r hr).1.unsettled
  · exact ⟨fun r hr => (hbare r hr).doc, hcycles⟩

/-- The members of a loop of targets stay without documentation, and exactly one cycle is reported of them,
whatever other members refer to them and in whatever order members are settled. -/
theorem inheritDocs_closes_loop (hl : g.IsTargetLoop loop) :
    (∀ r ∈ loop, ∃ m, g.inheritDocs.1.memberAt? r = some m ∧ m.doc = "") ∧
      g.inheritDocs.2.cyclesOf loop = 1 ∧
      ∀ rs : List MemberRef, (∀ r ∈ rs, r ∈ g.refs) → (∃ r ∈ loop, r ∈ rs) →
        ClosesLoop loop (rs.foldl resolveMember { graph := g }) := by
  obtain ⟨r, hr⟩ := List.exists_mem_of_ne_nil loop hl.ne_nil
  have hall : ClosesLoop loop (settleAll g) := hl.closesLoop (fun _ => id) ⟨r, hr, hl.mem_refs hr⟩
  exact ⟨hall.doc_eq, hall.cycles, fun rs hrs hcalled => hl.closesLoop hrs hcalled⟩

/-- Targets lead from a window to a style, from there to a theme and back to the window. A search comes to the
window from a frame, and a target to the style from a button. The theme has another method, which names
itself. -/
def carousel : ClassGraph where
  classes := [
    { name := "Frame"
      parent := some "Window"
      members := ⟨[(⟨.method, "draw"⟩, { ref := ⟨"Frame", .method, "draw"⟩ })], by decide⟩
      located := by decide },
    { name := "Button"
      members := ⟨[(⟨.method, "draw"⟩,
        { ref := ⟨"Button", .method, "draw"⟩, inherits := some { cls := some "Style" } })], by decide⟩
      located := by decide },
    { name := "Window"
      members := ⟨[(⟨.method, "draw"⟩,
        { ref := ⟨"Window", .method, "draw"⟩, inherits := some { cls := some "Style" } })], by decide⟩
      located := by decide },
    { name := "Style"
      members := ⟨[(⟨.method, "draw"⟩,
        { ref := ⟨"Style", .method, "draw"⟩
          inherits := some { cls := some "Theme", member := some "paint" } })], by decide⟩
      located := by decide },
    { name := "Theme"
      members := ⟨[(⟨.method, "paint"⟩,
        { ref := ⟨"Theme", .method, "paint"⟩
          inherits := some { cls := some "Window", member := some "draw" } }),
        (⟨.method, "hide"⟩,
        { ref := ⟨"Theme", .method, "hide"⟩
          inherits := some { member := some "hide" } })], by decide⟩
      located := by decide }]
  distinct := by decide

/-- The loop of the window, and that of the method that names itself. -/
def carouselLoops : List (List MemberRef) :=
  [[⟨"Window", .method, "draw"⟩, ⟨"Style", .method, "draw"⟩, ⟨"Theme", .method, "paint"⟩],
    [⟨"Theme", .method, "hide"⟩]]

theorem inheritDocs_closes_loop_carousel :
    (∀ loop ∈ carouselLoops, carousel.IsTargetLoop loop) ∧
      ∀ loop ∈ carouselLoops,
        (∀ r ∈ loop, ∃ m, carousel.inheritDocs.1.memberAt? r = some m ∧ m.doc = "") ∧
          carousel.inheritDocs.2.cyclesOf loop = 1 ∧
          ClosesLoop loop (carousel.refs.reverse.foldl resolveMember { graph := carousel }) := by
  have hloops : ∀ loop ∈ carouselLoops, carousel.IsTargetLoop loop := by
    simp only [carouselLoops, List.forall_mem_cons]
    refine ⟨⟨by decide, by decide, ?_, by decide +kernel⟩,
      ⟨by decide, by decide, ?_, by decide +kernel⟩, by simp⟩
    · rw [Cycle.chain_coe_cons]
      decide +kernel
    · rw [Cycle.chain_singleton]
      decide +kernel
  refine ⟨hloops, fun loop hmem => ?_⟩
  have hl := hloops loop hmem
  obtain ⟨hdoc, hcycles, horder⟩ := inheritDocs_closes_loop hl
  obtain ⟨r, hr⟩ := List.exists_mem_of_ne_nil loop hl.ne_nil
  refine ⟨hdoc, hcycles, horder _ (fun r hr => List.mem_reverse.1 hr) ⟨r, hr, ?_⟩⟩
  exact List.mem_reverse.2 (hl.mem_refs hr)

end ClassGraph

end DocGraph
