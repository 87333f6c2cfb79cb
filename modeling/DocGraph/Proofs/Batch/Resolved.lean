import DocGraph.Proofs.Batch.Course
import DocGraph.Proofs.Catalog.Options
import DocGraph.Proofs.Graph.Outline
import DocGraph.Proofs.Inheritance.Origin

/-!
# Members of resolved graphs

A graph is built of a catalog with one member for each of its fragments. Cutting cycles leaves the members
as they are, inheriting fills what some of them lack, and the last steps settle versions and what is
returned, and nothing else. So every member of a resolved graph can be followed back to its fragment.
-/

namespace DocGraph

/-! ### Built graphs -/

namespace Batch

open Catalog

variable {c : Catalog} {external : List Scalar} {g : ClassGraph} {m : Member}

lemma classes_of_graphOf (h : graphOf c external = .ok g) :
    g.classes = c.values.map DocClass.ofRecord := by
  simp only [graphOf, ClassGraph.ofClasses] at h
  split at h
  · simp [Except.mapError] at h
  · simp only [Except.mapError, Except.ok.injEq] at h
    rw [← h]

/-- Every member of the graph of a catalog is that of a fragment. -/
lemma exists_fragment (hn : c.IsNamed) (h : graphOf c external = .ok g) (hm : g.HasMember m) :
    ∃ f, c.member? m.ref = some f ∧ m = Member.ofFragment m.ref f := by
  obtain ⟨cls, hcls, hkey⟩ := Option.bind_eq_some_iff.1 hm
  have hmem : cls ∈ c.values.map DocClass.ofRecord :=
    classes_of_graphOf h ▸ ClassGraph.mem_classes_of_find? hcls
  obtain ⟨r, hr, rfl⟩ := List.mem_map.1 hmem
  have href : m.ref = ⟨r.name, m.ref.key⟩ := ClassGraph.ref_of_member? hkey
  change (DocClass.membersOf r.name Member.ofFragment r.members).get? m.ref.key = some m at hkey
  rw [DocClass.membersOf, OrderedMap.get?_map, Option.map_eq_some_iff] at hkey
  obtain ⟨f, hf, hm⟩ := hkey
  refine ⟨f, ?_, ?_⟩
  · rw [member?, href, hn.get?_name hr]
    exact hf
  · rw [← hm]
    rfl

end Batch

/-! ### Resolved graphs -/

/-- Two members differ at most in their version and in what they return. -/
def Member.Agrees (m m' : Member) : Prop :=
  ∃ returns resolvedSince isNew, m = { m' with returns, resolvedSince, isNew }

namespace Member.Agrees

variable {m m' : Member}

lemma ref_eq (h : m.Agrees m') : m.ref = m'.ref := by
  obtain ⟨_, _, _, rfl⟩ := h
  rfl

lemma params_eq (h : m.Agrees m') : m.params = m'.params := by
  obtain ⟨_, _, _, rfl⟩ := h
  rfl

lemma inheritedFrom_eq (h : m.Agrees m') : m.inheritedFrom = m'.inheritedFrom := by
  obtain ⟨_, _, _, rfl⟩ := h
  rfl

lemma circularDiagnostic_eq (h : m.Agrees m') : m.circularDiagnostic = m'.circularDiagnostic := by
  obtain ⟨_, _, _, rfl⟩ := h
  rfl

end Member.Agrees

namespace ClassGraph

variable {g : ClassGraph} {r : MemberRef} {m : Member} {o : VersionOptions}

lemma memberAt?_cutCycles (g : ClassGraph) (r : MemberRef) :
    g.cutCycles.1.memberAt? r = g.memberAt? r := by
  obtain ⟨_, _, hg⟩ := g.exists_cutCycles_eq
  rw [hg]
  rfl

lemma exists_of_memberAt?_mapClasses {f : DocClass → DocClass} {h : ∀ c, (f c).name = c.name}
    (hm : (g.mapClasses f h).memberAt? r = some m) (settle : DocClass → Member → Member)
    (halternate : ∀ c, (f c).alternateNames = c.alternateNames)
    (hmembers : ∀ c key, (f c).member? key = (c.member? key).map (settle c)) :
    ∃ c m', g.memberAt? r = some m' ∧ m = settle c m' := by
  rw [memberAt?, member?, find?_mapClasses g h halternate] at hm
  obtain ⟨c', hc', hm⟩ := Option.bind_eq_some_iff.1 hm
  obtain ⟨c, hc, rfl⟩ := Option.map_eq_some_iff.1 hc'
  rw [hmembers, Option.map_eq_some_iff] at hm
  obtain ⟨m', hm', rfl⟩ := hm
  exact ⟨c, m', by rw [memberAt?, member?, hc]; exact hm', rfl⟩

/-- The last steps settle the version of a member and what it returns. -/
lemma exists_agrees (hm : (g.withVersions o).settleReturns.HasMember m) :
    ∃ m', g.HasMember m' ∧ m.Agrees m' := by
  obtain ⟨c, m₁, hm₁, hm⟩ := exists_of_memberAt?_mapClasses hm
    (fun c m => if m.kind = .method then { m with returns := m.selfReturns c.name } else m)
    (fun _ => rfl) fun c key => c.member?_mapMembers _ key
  obtain ⟨c', m', hm', rfl⟩ := exists_of_memberAt?_mapClasses hm₁
    (fun c => g.settleMember o (versionOr (written c.since) o.default))
    (fun _ => rfl) fun c key => c.members.get?_map _ key
  have hagrees : m.Agrees m' := by
    rw [hm]
    split
    · exact ⟨_, _, _, rfl⟩
    · exact ⟨_, _, _, rfl⟩
  exact ⟨m', by rw [HasMember, ← hagrees.ref_eq, hm'], hagrees⟩

end ClassGraph

/-! ### From fragments to members -/

/-- A member of a graph that was resolved is that of a fragment, with what it has taken over. -/
structure Follows (g : ClassGraph) (f : Fragment) (m : Member) : Prop where
  hasMember : g.HasMember (.ofFragment m.ref f)
  exists_agrees : ∃ m', g.inheritDocs.1.HasMember m' ∧ m.Agrees m' ∧
    (m' = .ofFragment m.ref f ∨ ∃ src, m' = (Member.ofFragment m.ref f).inherit src ∧
      Inheriting.IsOrigin g (Inheriting.settleAll g) src)

namespace Follows

variable {g : ClassGraph} {f : Fragment} {m : Member}

lemma circularDiagnostic_eq (h : Follows g f m) :
    m.circularDiagnostic = (Member.ofFragment m.ref f).circularDiagnostic := by
  obtain ⟨m', -, hagrees, rfl | ⟨src, rfl, -⟩⟩ := h.exists_agrees <;>
    exact hagrees.circularDiagnostic_eq

/-- Every member of a resolved graph is followed back to its fragment. -/
lemma exists_follows {c : Catalog} {external : List Scalar} {o : ClassGraph.VersionOptions}
    (hn : c.IsNamed) (hg : Batch.graphOf c external = .ok g)
    (hm : (g.cutCycles.1.inheritDocs.1.withVersions o).settleReturns.HasMember m) :
    ∃ f, c.member? m.ref = some f ∧ Follows g.cutCycles.1 f m := by
  obtain ⟨m', hm', hagrees⟩ := ClassGraph.exists_agrees hm
  obtain ⟨m₀, hm₀, href, hcase⟩ := Inheriting.exists_of_hasMember_inheritDocs hm'
  have hbuilt : g.HasMember m₀ := by
    rwa [ClassGraph.HasMember, ← ClassGraph.memberAt?_cutCycles]
  obtain ⟨f, hf, hmf⟩ := Batch.exists_fragment hn hg hbuilt
  rw [href, ← hagrees.ref_eq] at hf hmf
  subst hmf
  exact ⟨f, hf, hm₀, m', hm', hagrees, hcase⟩

end Follows

end DocGraph
