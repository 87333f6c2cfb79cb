import DocGraph.Graph.Versions
import DocGraph.Proofs.Inheritance.Shape

/-!
# Settled versions

Settling versions changes the versions of classes and members and nothing else. It fails only where two
versions that are set cannot be compared, which scalars always can.
-/

namespace DocGraph.ClassGraph

variable {g : ClassGraph} {o : VersionOptions} {c : DocClass} {m : Member} {r : MemberRef} {n : String}
  {v : Scalar}

/-- A scalar can be compared with anything. -/
lemma exists_equals {w x : Value} (h : w = .scalar v ∨ x = .scalar v) : ∃ b, w.equals x = .ok b := by
  rw [Value.equals.eq_def]
  split
  · exact ⟨_, rfl⟩
  · rw [Value.comparingDepth, Value.sameWithin]
    split
    · exact ⟨_, rfl⟩
    · rcases h with rfl | rfl
      · rw [Value.opened_scalar]
        cases x.opened <;> exact ⟨_, rfl⟩
      · rw [Value.opened_scalar]
        cases w.opened <;> exact ⟨_, rfl⟩

/-- Versions can be settled if one of those that are set is a scalar. -/
lemma settleVersions_of_scalar (h : o.default = .scalar v ∨ o.newSince = .scalar v) :
    g.settleVersions o = .ok (g.withVersions o) := by
  rw [settleVersions]
  split
  · obtain ⟨b, hb⟩ := exists_equals h
    rw [hb]
    rfl
  · rfl

/-- The version that is settled for a class. -/
def versionOf (g : ClassGraph) (n : String) : Option Value := (g.find? n).map DocClass.resolvedSince

lemma ref_settleMember (g : ClassGraph) (o : VersionOptions) (clsSince : Value) (m : Member) :
    (g.settleMember o clsSince m).ref = m.ref := rfl

/-- A class with its version and those of its members settled. -/
def settleClass (g : ClassGraph) (o : VersionOptions) (c : DocClass) : DocClass :=
  let since := versionOr (written c.since) o.default
  { c.mapMembers (g.settleMember o since) (g.ref_settleMember o since) with resolvedSince := since }

lemma withVersions_eq (g : ClassGraph) (o : VersionOptions) :
    g.withVersions o = g.mapClasses (g.settleClass o) fun _ => rfl := rfl

lemma find?_withVersions (g : ClassGraph) (o : VersionOptions) (n : String) :
    (g.withVersions o).find? n = (g.find? n).map (g.settleClass o) :=
  g.find?_mapClasses (f := g.settleClass o) (fun _ => rfl) (fun _ => rfl) n

lemma versionOf_withVersions (h : g.find? n = some c) :
    (g.withVersions o).versionOf n = some (versionOr (written c.since) o.default) := by
  rw [versionOf, find?_withVersions, h]
  rfl

lemma member?_settleClass (c : DocClass) (key : MemberKey) :
    (g.settleClass o c).member? key =
      (c.member? key).map (g.settleMember o (versionOr (written c.since) o.default)) :=
  c.members.get?_map _ key

lemma memberAt?_withVersions (h : g.memberAt? r = some m) :
    ∃ clsSince, (g.withVersions o).memberAt? r = some (g.settleMember o clsSince m) := by
  obtain ⟨c, hc, hm⟩ := Option.bind_eq_some_iff.1 h
  refine ⟨versionOr (written c.since) o.default, ?_⟩
  rw [memberAt?, member?, find?_withVersions, hc, Option.map_some, Option.bind_some,
    member?_settleClass, hm, Option.map_some]

/-! ### Members that are changed before or after -/

section MapMembers

variable {f : Member → Member} (hf : ∀ m, (f m).ref = m.ref) (hsince : ∀ m, (f m).since = m.since)
  (hapart : ∀ (m : Member) resolvedSince isNew,
    f { m with resolvedSince, isNew } = { f m with resolvedSince, isNew })

include hsince

lemma inheritedSince_mapMembers (g : ClassGraph) (r : MemberRef) :
    (g.mapMembers f hf).inheritedSince r = g.inheritedSince r := by
  rw [inheritedSince, inheritedSince, searchOrder_mapMembers, List.findSome?_map]
  congr 1
  funext c
  simp [DocClass.member?_mapMembers, Option.bind_map, hsince]

lemma writtenSince_mapMembers (g : ClassGraph) (m : Member) :
    (g.mapMembers f hf).writtenSince (f m) = g.writtenSince m := by
  rw [writtenSince, writtenSince, inheritedSince_mapMembers hf hsince, hsince, hf]

include hapart

lemma settleMember_mapMembers (g : ClassGraph) (o : VersionOptions) (clsSince : Value) (m : Member) :
    (g.mapMembers f hf).settleMember o clsSince (f m) = f (g.settleMember o clsSince m) := by
  simp only [settleMember, writtenSince_mapMembers hf hsince]
  exact (hapart ..).symm

lemma settleClass_mapMembers (g : ClassGraph) (o : VersionOptions) (c : DocClass) :
    (g.mapMembers f hf).settleClass o (c.mapMembers f hf) = (g.settleClass o c).mapMembers f hf := by
  have hmembers : (c.members.map fun _ m => f m).map (fun _ m =>
        (g.mapMembers f hf).settleMember o (versionOr (written c.since) o.default) m) =
      (c.members.map fun _ m => g.settleMember o (versionOr (written c.since) o.default) m).map
        fun _ m => f m := by
    simp only [OrderedMap.map_map, settleMember_mapMembers hf hsince hapart]
  simp only [settleClass, DocClass.mapMembers, hmembers]

/-- A change of members that neither looks at versions nor touches them may be made before or after they
are settled. -/
lemma withVersions_mapMembers (g : ClassGraph) (o : VersionOptions) :
    (g.mapMembers f hf).withVersions o = (g.withVersions o).mapMembers f hf := by
  have hclasses : (g.classes.map fun c => c.mapMembers f hf).map ((g.mapMembers f hf).settleClass o) =
      (g.classes.map (g.settleClass o)).map fun c => c.mapMembers f hf := by
    rw [List.map_map, List.map_map]
    exact List.map_congr_left fun c _ => settleClass_mapMembers hf hsince hapart g o c
  rw [withVersions_eq, withVersions_eq]
  simp only [mapMembers, mapClasses] at hclasses ⊢
  simp only [hclasses]

end MapMembers

end DocGraph.ClassGraph
