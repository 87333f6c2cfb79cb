import DocGraph.Proofs.Inheritance.Origin

/-!
# Targets

A member that names a target takes the documentation of the target as that ends up, and nothing is
reported as a cycle, in whatever order the classes are given. This needs that no target comes back to
the member that names it, neither by targets nor by searches.

That targets alone do not come back is not enough. A search may come to a member whose target is the one
that searches. If the search was begun first, the target is still being settled and is refused; if the
target was named first, the search passes over the member that names it.
-/

namespace DocGraph

namespace ClassGraph

variable {g : ClassGraph} {r r' : MemberRef}

/-- No target depends on the member that names it. -/
def NoTargetReturns (g : ClassGraph) : Prop :=
  ∀ r r', g.NamesTarget r r' → ¬Relation.ReflTransGen g.DependsOn r' r

/-- A number that does not grow from members to those that they depend on, and gets smaller from members
to their targets, shows that no target returns. -/
lemma noTargetReturns_of_rank (rank : MemberRef → Nat)
    (hd : ∀ r ∈ g.refs, ∀ r' ∈ g.refs, g.DependsOn r r' → rank r' ≤ rank r)
    (hn : ∀ r ∈ g.refs, ∀ r' ∈ g.refs, g.NamesTarget r r' → rank r' < rank r) :
    g.NoTargetReturns := by
  intro r r' h hback
  have hle : ∀ x, Relation.ReflTransGen g.DependsOn r' x → x ∈ g.refs ∧ rank x ≤ rank r' := by
    intro x hx
    induction hx with
    | refl => exact ⟨h.mem_refs, le_rfl⟩
    | tail _ hstep ih =>
      obtain ⟨hmem, hle⟩ := ih
      exact ⟨hstep.mem_refs, (hd _ hmem _ hstep.mem_refs hstep).trans hle⟩
  obtain ⟨hmem, hle⟩ := hle r hback
  exact absurd (hn r hmem r' h.mem_refs h) (not_lt.2 hle)

/-- Inheriting reports no cycle, and members without documentation end up with that of their targets. -/
structure HonoursTargets (g : ClassGraph) : Prop where
  no_cycle : ∀ d ∈ g.inheritDocs.2.diagnostics, d.kind ≠ .structuralCycle
  doc_eq : ∀ m, g.HasMember m → m.doc.isEmpty → ∀ t ∈ m.target?, ∀ found ∈ g.target? m t,
    ∃ m' found', g.inheritDocs.1.memberAt? m.ref = some m' ∧
      g.inheritDocs.1.memberAt? found.ref = some found' ∧ m'.doc = found'.doc

end ClassGraph

namespace Inheriting

variable {g : ClassGraph} {s s' : Inheriting} {m : Member}

/-- Nothing is called for again while it is being settled. -/
lemma Called.not_mem_active (hc : Called g s m.ref) (hs : Sound g s) (hg : g.NoTargetReturns) :
    m.ref ∉ s.active := by
  intro ha
  obtain ⟨a, rest, hcons⟩ := List.exists_cons_of_ne_nil (List.ne_nil_of_mem ha)
  have hname : g.NamesTarget a m.ref := (hc a (by simp [hcons])).2 ha
  refine hg _ _ hname ?_
  rw [hcons] at ha
  rcases List.mem_cons.1 ha with heq | ha
  · exact heq ▸ .refl
  · exact (hs.transGen_head hcons ha).to_reflTransGen

/-- What is reported about the source of a member is no cycle. -/
lemma Outcome.no_cycle {src : Option Member} {j : Journal} (ho : Outcome g s m src j)
    (hm : g.HasMember m) (hg : g.NoTargetReturns) : ∀ d ∈ j.diagnostics, d.kind ≠ .structuralCycle := by
  have hkind : DiagnosticKind.unresolvedReference ≠ .structuralCycle := by decide
  cases ho with
  | missing _ _ => exact List.forall_mem_singleton.2 hkind
  | itself ht h he => exact absurd .refl (hg _ _ (he ▸ hm.namesTarget ht h))
  | target _ _ _ _ _ => exact List.forall_mem_nil _
  | found _ _ => exact List.forall_mem_nil _
  | unfound _ _ =>
    split
    · exact List.forall_mem_singleton.2 hkind
    · exact List.forall_mem_nil _

lemma Move.no_cycle (h : Move g s s') (hs : Sound g s) (hg : g.NoTargetReturns)
    (hj : ∀ d ∈ s.journal.diagnostics, d.kind ≠ .structuralCycle) :
    ∀ d ∈ s'.journal.diagnostics, d.kind ≠ .structuralCycle := by
  cases h with
  | keep => exact hj
  | enter => exact hj
  | circular hm ha hc => exact absurd ha (hc.not_mem_active hs hg)
  | finish hm ha ho =>
    simp only [Inheriting.finish, Journal.diagnostics_append, List.forall_mem_append]
    exact ⟨hj, ho.no_cycle hm hg⟩

end Inheriting

namespace ClassGraph

open Inheriting

variable {g : ClassGraph}

/-- Inheriting without a reported cycle lets every member have what its target ends up with. -/
lemma exists_doc_eq (hj : ∀ d ∈ g.inheritDocs.2.diagnostics, d.kind ≠ .structuralCycle) {m found : Member}
    {t : DocTarget} (hm : g.HasMember m) (hdoc : m.doc.isEmpty) (ht : m.target? = some t)
    (h : g.target? m t = some found) (hne : found.ref ≠ m.ref) :
    ∃ m' found', g.inheritDocs.1.memberAt? m.ref = some m' ∧
      g.inheritDocs.1.memberAt? found.ref = some found' ∧ m'.doc = found'.doc := by
  have hn : m.needsDocs := by simp [Member.needsDocs, hdoc]
  have hdeps : g.dependencies m = [found.ref] := by simp [dependencies, hn, ht, h, hne]
  cases fate_settleAll hm with
  | kept _ hnone => simp [hdeps, ht] at hnone
  | @filled src hat hd hsrc =>
    have href : src.ref = found.ref := by simpa [dependsOn_iff hm, hdeps] using hd
    rcases hsrc with ⟨-, hsrc⟩ | ⟨m', -, -, hwarn⟩
    · exact ⟨_, src, hat, href ▸ hsrc, by simp [Member.inherit, hdoc]⟩
    · exact absurd rfl (hj _ (Journal.mem_diagnostics.2 hwarn))

/-- Targets are honoured, whatever the order of classes and members, if none of them returns. -/
theorem inheritDocs_honours_targets (g : ClassGraph) (hg : g.NoTargetReturns) :
    g.HonoursTargets := by
  have hj : ∀ d ∈ g.inheritDocs.2.diagnostics, d.kind ≠ .structuralCycle :=
    (run_settleAll g).preserves (sound_start g) (by simp) fun _ _ hs hj h => h.no_cycle hs hg hj
  refine ⟨hj, fun m hm hdoc t ht found h => exists_doc_eq hj hm hdoc ht h fun he => ?_⟩
  exact hg _ _ (hm.namesTarget ht h) (he ▸ .refl)

/-- Two panels whose searches come back to each other, and a button that names one of them. -/
def namedLoop : ClassGraph where
  classes := [
    { name := "Button"
      members := ⟨[(⟨.method, "paint"⟩,
        { ref := ⟨"Button", .method, "paint"⟩
          inherits := some { cls := some "Panel", member := some "layout" } })], by decide⟩
      located := by decide },
    { name := "Panel"
      parent := some "Window"
      mixins := ["Style"]
      members := ⟨[(⟨.method, "layout"⟩, { ref := ⟨"Panel", .method, "layout"⟩ })], by decide⟩
      located := by decide },
    { name := "Window"
      mixins := ["Panel"]
      members := ⟨[(⟨.method, "layout"⟩, { ref := ⟨"Window", .method, "layout"⟩ })], by decide⟩
      located := by decide },
    { name := "Style"
      members := ⟨[(⟨.method, "layout"⟩,
        { ref := ⟨"Style", .method, "layout"⟩, doc := "Lays out." })], by decide⟩
      located := by decide }]
  distinct := by decide

/-- Searches that come back do not matter. -/
theorem inheritDocs_namedLoop :
    namedLoop.NoTargetReturns ∧ namedLoop.HonoursTargets ∧
      (namedLoop.inheritDocs.1.memberAt? ⟨"Button", .method, "paint"⟩).map Member.doc =
        some "Lays out." := by
  have hg : namedLoop.NoTargetReturns :=
    noTargetReturns_of_rank (fun r => if r.cls = "Button" then 1 else 0) (by decide +kernel)
      (by decide +kernel)
  exact ⟨hg, inheritDocs_honours_targets namedLoop hg, by decide +kernel⟩

/-- A window whose target is the panel that has it as parent. -/
def crossedLoop : ClassGraph where
  classes := [
    { name := "Panel"
      parent := some "Window"
      mixins := ["Style"]
      members := ⟨[(⟨.method, "layout"⟩, { ref := ⟨"Panel", .method, "layout"⟩ })], by decide⟩
      located := by decide },
    { name := "Window"
      members := ⟨[(⟨.method, "layout"⟩,
        { ref := ⟨"Window", .method, "layout"⟩, inherits := some { cls := some "Panel" } })], by decide⟩
      located := by decide },
    { name := "Style"
      members := ⟨[(⟨.method, "layout"⟩,
        { ref := ⟨"Style", .method, "layout"⟩, doc := "Lays out." })], by decide⟩
      located := by decide }]
  distinct := by decide

/-- That targets do not come back by targets alone is not enough. -/
theorem not_honoursTargets_crossedLoop :
    ¬∀ g : ClassGraph, (∀ r, ¬Relation.TransGen g.cutCycles.1.NamesTarget r r) →
      g.cutCycles.1.HonoursTargets := by
  intro h
  have hcut : crossedLoop.cutCycles.1 = crossedLoop :=
    cutCycles_of_ranks (fun n => if n = "Panel" then 1 else 0) (fun n => if n = "Panel" then 1 else 0)
      (by decide) (by decide)
  have hopen : ∀ r, ¬Relation.TransGen crossedLoop.NamesTarget r r :=
    not_transGen_of_rank (fun r => if r.cls = "Window" then 1 else 0) (fun _ _ hn => hn.mem_refs)
      (by decide +kernel)
  have hhonours : crossedLoop.HonoursTargets := hcut ▸ h crossedLoop (hcut.symm ▸ hopen)
  have hwindow : (crossedLoop.inheritDocs.1.memberAt? ⟨"Window", .method, "layout"⟩).map Member.doc =
      some "" := by decide +kernel
  have hpanel : (crossedLoop.inheritDocs.1.memberAt? ⟨"Panel", .method, "layout"⟩).map Member.doc =
      some "Lays out." := by decide +kernel
  obtain ⟨m', found', hm', hfound', heq⟩ := hhonours.doc_eq
    { ref := ⟨"Window", .method, "layout"⟩, inherits := some { cls := some "Panel" } } (by rfl) (by rfl)
    { cls := some "Panel" } (by rfl) { ref := ⟨"Panel", .method, "layout"⟩ } (by rfl)
  rw [hm', Option.map_some, Option.some_inj] at hwindow
  rw [hfound', Option.map_some, Option.some_inj] at hpanel
  simp [hwindow, hpanel] at heq

end ClassGraph

end DocGraph
