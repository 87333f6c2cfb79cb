import DocGraph.Graph.SelfReturns
import DocGraph.Proofs.Graph.Versions
import DocGraph.Proofs.Inheritance.Filling
import DocGraph.Proofs.Inheritance.Origin
import DocGraph.Proofs.Text.LetterCase

/-!
# Methods that return their object

What a method is said to return may have been written for a method of another class. Where it is the
object itself, the class that is put in its place is that of the method that returns it. So it does not
matter how far the description was inherited, nor whether versions are settled in between.
-/

namespace DocGraph

/-! ### Methods -/

namespace Member

variable {m : Member}

/-- The word for the object itself is found in any letter case, and in no other spelling. -/
lemma lower_eq_selfWord_iff {s : String} : Text.lower s = selfWord ↔ Text.IsSpelling s selfWord :=
  Text.lower_eq_iff (by decide)

/-- A method is chainable, or said to return the object itself, or a constructor of which nothing is said. -/
def ReturnsSelf (m : Member) : Prop :=
  m.kind = .method ∧ (m.chainable = true ∨ (∃ d, m.returns = some d ∧ Text.IsSpelling d.type selfWord) ∨
    m.returns = none ∧ m.name = constructorName)

/-- A member with what it returns settled. -/
def returning (m : Member) : Member :=
  if m.kind = .method then { m with returns := m.selfReturns m.owner } else m

@[simp] lemma ref_returning (m : Member) : m.returning.ref = m.ref := by
  rw [returning]
  split <;> rfl

/-- The class in the place of the object itself. What else is said stays. -/
lemma returning_of_returnsSelf (h : m.ReturnsSelf) :
    m.returning = { m with returns := some ⟨m.owner, (m.returns.map Returns.doc).getD selfWord⟩ } := by
  obtain ⟨hkind, h⟩ := h
  rw [returning, if_pos hkind, selfReturns]
  cases hreturns : m.returns with
  | none =>
    have hself : m.chainable = true ∨ m.name = constructorName := by simpa [hreturns] using h
    simp [hself]
  | some d =>
    have hself : m.chainable = true ∨ Text.IsSpelling d.type selfWord := by simpa [hreturns] using h
    simp [lower_eq_selfWord_iff, hself]

lemma returning_of_not_returnsSelf (h : ¬m.ReturnsSelf) : m.returning = m := by
  rw [returning]
  split
  · next hkind =>
    have hkept : m.selfReturns m.owner = m.returns := by
      simp only [ReturnsSelf, hkind, true_and] at h
      rw [selfReturns]
      cases hreturns : m.returns with
      | none =>
        simp only [hreturns] at h
        simpa using h
      | some d =>
        have hself : ¬(m.chainable = true ∨ Text.IsSpelling d.type selfWord) := by simpa [hreturns] using h
        simp [lower_eq_selfWord_iff, hself]
    rw [hkept]
  · rfl

@[simp] lemma returning_returning (m : Member) : m.returning.returning = m.returning := by
  by_cases h : m.ReturnsSelf
  · rw [returning_of_returnsSelf h]
    by_cases hagain : ReturnsSelf
      { m with returns := some ⟨m.owner, (m.returns.map Returns.doc).getD selfWord⟩ }
    · rw [returning_of_returnsSelf hagain]
      rfl
    · rw [returning_of_not_returnsSelf hagain]
  · rw [returning_of_not_returnsSelf h, returning_of_not_returnsSelf h]

/-- A method that is said to return the object itself when all is settled is one of a class of that name. -/
lemma eq_owner_of_returning {d : Returns} (hkind : m.kind = .method) (hd : m.returning.returns = some d)
    (hself : Text.IsSpelling d.type selfWord) : d.type = m.owner := by
  by_cases h : m.ReturnsSelf
  · rw [returning_of_returnsSelf h, Option.some.injEq] at hd
    rw [← hd]
  · rw [returning_of_not_returnsSelf h] at hd
    exact absurd ⟨hkind, .inr (.inl ⟨d, hd, hself⟩)⟩ h

end Member

/-! ### Graphs -/

namespace ClassGraph

variable {g : ClassGraph} {m : Member}

/-- What a method returns is settled by the method alone, since it knows its class. -/
lemma settleReturns_eq_mapMembers (g : ClassGraph) :
    g.settleReturns = g.mapMembers Member.returning Member.ref_returning := by
  have hclasses : g.classes.map (fun c => c.mapMembers (fun m =>
        if m.kind = .method then { m with returns := m.selfReturns c.name } else m) fun m => by
          split <;> rfl) =
      g.classes.map fun c => c.mapMembers Member.returning Member.ref_returning := by
    refine List.map_congr_left fun c _ => ?_
    have hmembers : c.members.map (fun _ m =>
          if m.kind = .method then { m with returns := m.selfReturns c.name } else m) =
        c.members.map fun _ m => m.returning := by
      simp only [OrderedMap.map, OrderedMap.mk.injEq]
      refine List.map_congr_left fun e he => ?_
      have howner : e.2.owner = c.name := by rw [Member.owner, c.located e he]
      rw [Member.returning, howner]
    simp [DocClass.mapMembers, hmembers]
  simp [settleReturns, mapMembers, mapClasses, hclasses]

lemma memberAt?_settleReturns (g : ClassGraph) (r : MemberRef) :
    g.settleReturns.memberAt? r = (g.memberAt? r).map Member.returning := by
  rw [settleReturns_eq_mapMembers, memberAt?_mapMembers]

lemma settleReturns_settleReturns (g : ClassGraph) : g.settleReturns.settleReturns = g.settleReturns := by
  rw [settleReturns_eq_mapMembers, settleReturns_eq_mapMembers, mapMembers_mapMembers]
  exact g.mapMembers_congr _ _ fun _ _ m _ => m.returning_returning

/-- What methods return may be settled before versions or after them. -/
lemma withVersions_settleReturns (g : ClassGraph) (o : VersionOptions) :
    g.settleReturns.withVersions o = (g.withVersions o).settleReturns := by
  rw [settleReturns_eq_mapMembers, settleReturns_eq_mapMembers]
  apply withVersions_mapMembers
  · intro m
    rw [Member.returning]
    split <;> rfl
  · intro m resolvedSince isNew
    simp only [Member.returning]
    split <;> rfl

/-- Inheriting fills the gaps of every member. -/
lemma exists_fills_inheritDocs (hm : g.HasMember m) :
    ∃ m', g.inheritDocs.1.memberAt? m.ref = some m' ∧ g.Fills m m' :=
  (Inheriting.run_settleAll g).areFilled (Inheriting.sound_start g) (fun m hm => ⟨m, hm, .refl g m⟩) m hm

/-- Once descriptions have been inherited and returns settled, a method that is chainable, that is said to
return the object itself, be it in words of its own or inherited ones, or that is a constructor of which
nothing is said, returns its own class, and what else is said stays. Nothing else has changed. No method is
left that is said to return the object itself, unless its class has that name. Settling again changes
nothing, and versions may be settled before or after. -/
theorem settleReturns_returns_owner (g : ClassGraph) :
    let g₁ := g.inheritDocs.1
    let g₂ := g₁.settleReturns
    (∀ m, g.HasMember m → ∃ m₁ m₂, g₁.memberAt? m.ref = some m₁ ∧ g₂.memberAt? m.ref = some m₂ ∧
      g.Fills m m₁ ∧
      (m₁.ReturnsSelf →
        m₂ = { m₁ with returns := some ⟨m.owner, (m₁.returns.map Returns.doc).getD selfWord⟩ }) ∧
      (¬m₁.ReturnsSelf → m₂ = m₁)) ∧
    g₁.SameShape g₂ ∧
    (∀ m d, g₂.HasMember m → m.kind = .method → m.returns = some d → Text.IsSpelling d.type selfWord →
      d.type = m.owner) ∧
    g₂.settleReturns = g₂ ∧
    ∀ o, g₂.withVersions o = (g₁.withVersions o).settleReturns := by
  intro g₁ g₂
  refine ⟨?_, ⟨_, _, settleReturns_eq_mapMembers g₁⟩, ?_, settleReturns_settleReturns g₁,
    withVersions_settleReturns g₁⟩
  · intro m hm
    obtain ⟨m₁, hm₁, hfills⟩ := exists_fills_inheritDocs hm
    have hm₂ : g₂.memberAt? m.ref = some m₁.returning := by
      rw [memberAt?_settleReturns, hm₁, Option.map_some]
    have howner : m.owner = m₁.owner := by rw [hfills.rest]
    refine ⟨m₁, _, hm₁, hm₂, hfills, ?_, Member.returning_of_not_returnsSelf⟩
    rw [howner]
    exact Member.returning_of_returnsSelf
  · intro m d hm hkind hd hself
    rw [HasMember, memberAt?_settleReturns, Option.map_eq_some_iff] at hm
    obtain ⟨m₁, -, rfl⟩ := hm
    rw [Member.kind, Member.ref_returning] at hkind
    rw [Member.owner, Member.ref_returning]
    exact Member.eq_owner_of_returning hkind hd hself

/-- A button is a widget and so a component. Only the component says that what is added is returned. -/
def heirs : ClassGraph where
  classes := [
    { name := "Button"
      parent := some "Widget"
      members := ⟨[(⟨.method, "add"⟩, { ref := ⟨"Button", .method, "add"⟩ })], by decide⟩
      located := by decide },
    { name := "Widget"
      parent := some "Component"
      members := ⟨[(⟨.method, "add"⟩, { ref := ⟨"Widget", .method, "add"⟩ })], by decide⟩
      located := by decide },
    { name := "Component"
      members := ⟨[(⟨.method, "add"⟩,
        { ref := ⟨"Component", .method, "add"⟩, doc := "Adds.", returns := some ⟨"This", "The object."⟩ })],
        by decide⟩
      located := by decide }]
  distinct := by decide

/-- Each of the three methods returns its own class. -/
example : heirs.refs.map (fun r => (heirs.inheritDocs.1.settleReturns.memberAt? r).bind Member.returns) =
    [some ⟨"Button", "The object."⟩, some ⟨"Widget", "The object."⟩, some ⟨"Component", "The object."⟩] := by
  decide +kernel

end ClassGraph

end DocGraph
