import DocGraph.Proofs.Inheritance.Resolution

/-!
# Filling gaps

Inheriting changes no member that is documented and does not ask for documentation. In any other one it
fills gaps: a part that was empty may come to be what some member of the graph had from the start, and
the origin is noted. Nothing is made up on the way, since whatever a member is filled from has been filled
in this manner itself.

Classes, edges and keys stay as they are, and what is reported is only added to.
-/

namespace DocGraph

/-! ### Filled members -/

namespace ClassGraph

variable {g : ClassGraph} {m src o : Member} {α : Type} {part : Member → α} {empty : α}

/-- A part of a member is as it was, or it was empty and is now what some member of the graph had. -/
def FillsPart (g : ClassGraph) (part : Member → α) (empty : α) (m m' : Member) : Prop :=
  part m' = part m ∨ part m = empty ∧ ∃ o, g.HasMember o ∧ part m' = part o

/-- A member has become another one by filling gaps. -/
structure Fills (g : ClassGraph) (m m' : Member) : Prop where
  documented : m.doc ≠ "" → m.inherits = none → m' = m
  rest : m' = { m with
    doc := m'.doc, params := m'.params, returns := m'.returns, type := m'.type
    inheritedFrom := m'.inheritedFrom }
  doc : g.FillsPart Member.doc "" m m'
  params : g.FillsPart Member.params [] m m'
  returns : g.FillsPart Member.returns none m m'
  type : g.FillsPart Member.type "" m m'

lemma Fills.refl (g : ClassGraph) (m : Member) : g.Fills m m where
  documented _ _ := rfl
  rest := rfl
  doc := .inl rfl
  params := .inl rfl
  returns := .inl rfl
  type := .inl rfl

/-- What is taken over from a member was there from the start, if that member has gaps filled only. -/
lemma FillsPart.inherit (h : g.FillsPart part empty o src) (ho : g.HasMember o)
    (hpart : part (m.inherit src) = part m ∨
      part m = empty ∧ part (m.inherit src) = part src) :
    g.FillsPart part empty m (m.inherit src) := by
  apply hpart.imp_right
  rintro ⟨hempty, hsrc⟩
  refine ⟨hempty, ?_⟩
  rcases h with hsame | ⟨-, o', ho', hfilled⟩
  · exact ⟨o, ho, hsrc.trans hsame⟩
  · exact ⟨o', ho', hsrc.trans hfilled⟩

lemma Fills.inherit (h : g.Fills o src) (ho : g.HasMember o) (hn : m.needsDocs) :
    g.Fills m (m.inherit src) where
  documented hdoc hi := by simp [Member.needsDocs, hdoc, hi] at hn
  rest := rfl
  doc := by
    apply h.doc.inherit ho
    by_cases hdoc : m.doc = "" <;> simp [Member.inherit, hdoc]
  params := by
    apply h.params.inherit ho
    by_cases hparams : m.params = [] <;> simp [Member.inherit, hparams]
  returns := by
    apply h.returns.inherit ho
    cases hreturns : m.returns <;> simp [Member.inherit, hreturns]
  type := by
    apply h.type.inherit ho
    by_cases htype : m.type = "" <;> simp [Member.inherit, htype]

end ClassGraph

namespace Inheriting

variable {g : ClassGraph} {s s' : Inheriting} {m src : Member}

/-! ### Moves -/

/-- What is taken over is a member of the graph as it is at the time. -/
lemma Outcome.exists_memberAt? {j : Journal} (ho : Outcome g s m (some src) j) (hs : Sound g s)
    (hm : g.HasMember m) (hn : m.needsDocs) : ∃ r ∈ g.refs, s.graph.memberAt? r = some src := by
  cases ho with
  | target ht h hne hr hsrc => exact ⟨_, (ClassGraph.hasMember_of_target? h).mem_refs, hsrc⟩
  | found ht h =>
    have hcands : ∀ r ∈ candidates g m.ref, r ∈ g.refs :=
      fun r hr => (hm.dependsOn_candidate hn ht hr).mem_refs
    obtain ⟨hmem, -, hsrc⟩ := h.settled hs hcands
    exact ⟨_, hcands _ hmem, hsrc⟩

/-- All members have become what they are by filling gaps. -/
def AreFilled (g : ClassGraph) (s : Inheriting) : Prop :=
  ∀ m, g.HasMember m → ∃ m', s.graph.memberAt? m.ref = some m' ∧ g.Fills m m'

lemma Move.areFilled (h : Move g s s') (hs : Sound g s) (hf : AreFilled g s) : AreFilled g s' := by
  cases h with
  | keep => exact hf
  | enter => exact hf
  | circular => exact hf
  | @finish m rest src j hm ha ho =>
    have hmem : m.ref ∈ s.active := by simp [ha]
    intro m' hm'
    by_cases hr : m'.ref = m.ref
    · obtain rfl := hm.unique hm' hr
      refine ⟨_, hs.memberAt?_finish hm hmem, ?_⟩
      cases src with
      | none => exact .refl g m'
      | some src =>
        have hn := hs.needsDocs hm hmem
        obtain ⟨r, hr, hsrc⟩ := ho.exists_memberAt? hs hm hn
        obtain ⟨o, hom, rfl⟩ := ClassGraph.mem_refs.1 hr
        obtain ⟨o', ho', hfill⟩ := hf o hom
        obtain rfl := Option.some.inj (hsrc.symm.trans ho')
        exact hfill.inherit hom hn
    · rw [hs.memberAt?_finish_of_ne hm'.mem_refs hr]
      exact hf m' hm'

lemma Move.journal_grows (h : Move g s s') : s.journal <+: s'.journal := by
  cases h with
  | keep => exact List.prefix_rfl
  | enter => exact List.prefix_rfl
  | circular => exact List.prefix_append _ _
  | finish => exact List.prefix_append _ _

/-! ### Runs -/

lemma Run.areFilled (h : Run g s s') (hs : Sound g s) (hf : AreFilled g s) : AreFilled g s' :=
  h.preserves hs hf fun _ _ hs hf hmove => hmove.areFilled hs hf

lemma Run.journal_grows (h : Run g s s') : s.journal <+: s'.journal := by
  induction h with
  | refl => exact List.prefix_rfl
  | tail _ hmove ih => exact ih.trans hmove.journal_grows

/-- Whatever members of a graph are settled one after the other, and whatever was reported before, the
members have only had gaps filled, nothing else has changed, and nothing that was reported is lost. -/
theorem foldl_resolveMember_fills_gaps (g : ClassGraph) (j : Journal) {rs : List MemberRef}
    (hrs : ∀ r ∈ rs, r ∈ g.refs) :
    let s := rs.foldl resolveMember { graph := g, journal := j }
    (∃ f hf, s.graph = g.mapMembers f hf ∧ ∀ m, g.HasMember m → g.Fills m (f m)) ∧
      j <+: s.journal ∧
      ∀ rs' : List MemberRef, (∀ r ∈ rs', r ∈ g.refs) →
        s.journal <+: (rs'.foldl resolveMember s).journal := by
  intro s
  have hstart : Sound g { graph := g, journal := j } := { sound_start g with }
  obtain ⟨hrun, hactive, -⟩ := run_foldl_resolveMember hstart rfl hrs
  have hs : Sound g s := hrun.sound hstart
  refine ⟨?_, hrun.journal_grows, ?_⟩
  · obtain ⟨f, hf, hgraph⟩ := hs.shape
    refine ⟨f, hf, hgraph, ?_⟩
    intro m hm
    obtain ⟨m', hm', hfill⟩ := hrun.areFilled hstart (fun m hm => ⟨m, hm, .refl g m⟩) m hm
    change s.graph.memberAt? m.ref = some m' at hm'
    rw [hgraph, g.memberAt?_mapMembers hf, hm] at hm'
    exact Option.some.inj hm' ▸ hfill
  · intro rs' hrs'
    exact (run_foldl_resolveMember hs hactive hrs').1.journal_grows

/-- Parents and mixins go round, one member names a class that looks for documentation itself, and another
one names a class that does not exist. -/
def tangle : ClassGraph where
  classes := [
    { name := "Panel"
      parent := some "Window"
      mixins := ["Style"]
      members := ⟨[(⟨.method, "draw"⟩,
        { ref := ⟨"Panel", .method, "draw"⟩, type := "Boolean" })], by decide⟩
      located := by decide },
    { name := "Window"
      parent := some "Panel"
      members := ⟨[(⟨.method, "draw"⟩,
        { ref := ⟨"Window", .method, "draw"⟩, inherits := some { cls := some "Panel" } }),
        (⟨.event, "close"⟩,
        { ref := ⟨"Window", .event, "close"⟩, inherits := some { cls := some "Door" } })], by decide⟩
      located := by decide },
    { name := "Style"
      mixins := ["Panel"]
      members := ⟨[(⟨.method, "draw"⟩,
        { ref := ⟨"Style", .method, "draw"⟩
          doc := "Draws."
          params := [{ name := "context" }]
          type := "Object" })], by decide⟩
      located := by decide }]
  distinct := by decide

/-- Members of the tangle in an order of their own, one of them twice. -/
def tangledCalls : List MemberRef := [⟨"Window", .event, "close"⟩, ⟨"Window", .method, "draw"⟩,
  ⟨"Panel", .method, "draw"⟩, ⟨"Window", .method, "draw"⟩]

lemma mem_refs_of_mem_tangledCalls : ∀ r ∈ tangledCalls, r ∈ tangle.refs := by decide +kernel

/-- A panel without documentation and parameters has both filled, but keeps its type. -/
theorem foldl_resolveMember_fills_gaps_tangle :
    let s := tangledCalls.foldl resolveMember { graph := tangle }
    (∀ r ∈ tangledCalls, r ∈ tangle.refs) ∧
      (∃ f hf, s.graph = tangle.mapMembers f hf ∧ ∀ m, tangle.HasMember m → tangle.Fills m (f m)) ∧
      (s.graph.memberAt? ⟨"Panel", .method, "draw"⟩).map (fun m => (m.doc, m.params, m.type)) =
        some ("Draws.", [{ name := "context" }], "Boolean") := by
  obtain ⟨hfills, -, -⟩ := foldl_resolveMember_fills_gaps tangle [] mem_refs_of_mem_tangledCalls
  exact ⟨mem_refs_of_mem_tangledCalls, hfills, by decide +kernel⟩

end Inheriting

end DocGraph
