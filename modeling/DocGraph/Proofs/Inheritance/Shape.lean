import DocGraph.Graph.Inheritance
import DocGraph.Proofs.Graph.Outline

/-!
# The shape of a graph

Inheriting changes members and nothing else, and it does not change their references. So everything that
is read off the names, the edges and the keys of a graph stays the same: ancestors, search order, the
candidates for a member, and which member a target names.
-/

namespace DocGraph

/-! ### Classes -/

namespace DocClass

variable {f h : Member → Member} (hf : ∀ m, (f m).ref = m.ref) (hh : ∀ m, (h m).ref = m.ref)

lemma member?_mapMembers (c : DocClass) (key : MemberKey) :
    (c.mapMembers f hf).member? key = (c.member? key).map f := by
  simp [member?, mapMembers]

lemma membersNamed_mapMembers (c : DocClass) (name : String) :
    (c.mapMembers f hf).membersNamed name = (c.membersNamed name).map f := by
  simp [membersNamed, mapMembers, OrderedMap.values, OrderedMap.map, List.filter_map,
    Function.comp_def, Member.name, hf]

lemma mapMembers_mapMembers (c : DocClass) :
    (c.mapMembers f hf).mapMembers h hh = c.mapMembers (h ∘ f) fun m => (hh _).trans (hf m) := by
  simp [mapMembers, OrderedMap.map_map]

lemma mapMembers_id (c : DocClass) : c.mapMembers id (fun _ => rfl) = c := by
  simp [mapMembers, OrderedMap.map_id]

/-- The member that a target names depends on the reference of the member that asks. -/
lemma targeted?_mapMembers (c : DocClass) {m m' : Member} (hm : m'.ref = m.ref) (t : DocTarget) :
    (c.mapMembers f hf).targeted? m' t = (c.targeted? m t).map f := by
  have hname : t.memberName m' = t.memberName m := by simp [DocTarget.memberName, Member.name, hm]
  have hkind : t.kindName m' = t.kindName m := by simp [DocTarget.kindName, Member.kind, hm]
  have hfound : ((MemberKind.ofName? (t.kindName m)).bind fun kind =>
        (c.mapMembers f hf).member? ⟨kind, t.memberName m⟩) =
      ((MemberKind.ofName? (t.kindName m)).bind fun kind =>
        c.member? ⟨kind, t.memberName m⟩).map f := by
    cases MemberKind.ofName? (t.kindName m) with
    | none => rfl
    | some kind => exact c.member?_mapMembers hf _
  simp only [targeted?, hname, hkind, hfound, membersNamed_mapMembers, List.head?_map]
  split
  · rw [Option.map_or]
  · rfl

end DocClass

namespace ClassGraph

/-! ### Graphs -/

/-- Change all members of a graph, but not their references. -/
def mapMembers (g : ClassGraph) (f : Member → Member) (hf : ∀ m, (f m).ref = m.ref) : ClassGraph :=
  g.mapClasses (fun c => c.mapMembers f hf) fun _ => rfl

section MapMembers

variable {f h : Member → Member} (hf : ∀ m, (f m).ref = m.ref) (hh : ∀ m, (h m).ref = m.ref)
  (g : ClassGraph)

lemma mapMembers_mapMembers :
    (g.mapMembers f hf).mapMembers h hh = g.mapMembers (h ∘ f) fun m => (hh _).trans (hf m) := by
  simp [mapMembers, mapClasses, Function.comp_def, DocClass.mapMembers_mapMembers]

lemma mapMembers_congr {f' : Member → Member} (hf' : ∀ m, (f' m).ref = m.ref)
    (heq : ∀ c ∈ g.classes, ∀ m ∈ c.members.values, f m = f' m) :
    g.mapMembers f hf = g.mapMembers f' hf' := by
  have hclasses : g.classes.map (fun c => c.mapMembers f hf) =
      g.classes.map fun c => c.mapMembers f' hf' := by
    refine List.map_congr_left fun c hc => ?_
    have hmembers : c.members.map (fun _ m => f m) = c.members.map fun _ m => f' m := by
      simp only [OrderedMap.map, OrderedMap.mk.injEq]
      refine List.map_congr_left fun e he => ?_
      rw [heq c hc e.2 (List.mem_map_of_mem he)]
    simp [DocClass.mapMembers, hmembers]
  simp [mapMembers, mapClasses, hclasses]

lemma mapMembers_id : g.mapMembers id (fun _ => rfl) = g := by
  simp [mapMembers, mapClasses, DocClass.mapMembers_id]

lemma find?_mapMembers (n : String) :
    (g.mapMembers f hf).find? n = (g.find? n).map fun c => c.mapMembers f hf :=
  g.find?_mapClasses (f := fun c => c.mapMembers f hf) (fun _ => rfl) (fun _ => rfl) n

lemma sameOutline_mapMembers : g.SameOutline (g.mapMembers f hf) :=
  .mapClasses g _ (fun _ => rfl) (fun _ => rfl) (fun _ => rfl) (fun _ => rfl) fun _ => rfl

/-- Members play no part in the order in which classes are searched. -/
lemma searchOrder_mapMembers (n : String) :
    (g.mapMembers f hf).searchOrder n = (g.searchOrder n).map fun c => c.mapMembers f hf :=
  g.searchOrder_mapClasses (f := fun c => c.mapMembers f hf) (fun _ => rfl) (fun _ => rfl)
    (g.sameOutline_mapMembers hf) n

lemma memberAt?_mapMembers (r : MemberRef) :
    (g.mapMembers f hf).memberAt? r = (g.memberAt? r).map f := by
  rw [memberAt?, memberAt?, member?, member?, find?_mapMembers]
  cases g.find? r.cls with
  | none => rfl
  | some c => exact c.member?_mapMembers hf r.key

lemma refs_mapMembers : (g.mapMembers f hf).refs = g.refs := by
  simp [refs, mapMembers, mapClasses, List.flatMap_map, DocClass.mapMembers, OrderedMap.values,
    OrderedMap.map, Function.comp_def, hf]

lemma candidates_mapMembers (r : MemberRef) :
    Inheriting.candidates (g.mapMembers f hf) r = Inheriting.candidates g r := by
  rw [Inheriting.candidates, Inheriting.candidates, searchOrder_mapMembers, List.filterMap_map]
  refine List.filterMap_congr fun c _ => ?_
  simp [DocClass.member?_mapMembers, Function.comp_def, hf]

lemma target?_mapMembers {m m' : Member} (hm : m'.ref = m.ref) (t : DocTarget) :
    (g.mapMembers f hf).target? m' t = (g.target? m t).map f := by
  have hclass : t.className m' = t.className m := by simp [DocTarget.className, Member.owner, hm]
  rw [target?, target?, hclass, find?_mapMembers]
  cases g.find? (t.className m) with
  | none => rfl
  | some c => exact c.targeted?_mapMembers hf hm t

end MapMembers

/-! ### Graphs of the same shape -/

/-- One graph is another one with changed members. -/
def SameShape (g g' : ClassGraph) : Prop :=
  ∃ (f : Member → Member) (hf : ∀ m, (f m).ref = m.ref), g' = g.mapMembers f hf

namespace SameShape

variable {g g' : ClassGraph} {r : MemberRef}

lemma refl (g : ClassGraph) : g.SameShape g := ⟨id, fun _ => rfl, g.mapMembers_id.symm⟩

lemma modifyMember (h : g.SameShape g') (r : MemberRef) {f : Member → Member}
    (hf : ∀ m, (f m).ref = m.ref) : g.SameShape (g'.modifyMember r f hf) := by
  obtain ⟨f₀, hf₀, rfl⟩ := h
  exact ⟨_, _, mapMembers_mapMembers hf₀ _ g⟩

lemma refs_eq (h : g.SameShape g') : g'.refs = g.refs := by
  obtain ⟨f, hf, rfl⟩ := h
  exact g.refs_mapMembers hf

lemma candidates_eq (h : g.SameShape g') (r : MemberRef) :
    Inheriting.candidates g' r = Inheriting.candidates g r := by
  obtain ⟨f, hf, rfl⟩ := h
  exact g.candidates_mapMembers hf r

/-- A target names the same member. -/
lemma target?_ref (h : g.SameShape g') (m : Member) (t : DocTarget) :
    (g'.target? m t).map Member.ref = (g.target? m t).map Member.ref := by
  obtain ⟨f, hf, rfl⟩ := h
  rw [g.target?_mapMembers hf rfl t, Option.map_map]
  exact congrArg (Option.map · (g.target? m t)) (funext hf)

end SameShape

lemma memberAt?_modifyMember (g : ClassGraph) (r r' : MemberRef) {f : Member → Member}
    (hf : ∀ m, (f m).ref = m.ref) :
    (g.modifyMember r f hf).memberAt? r' =
      (g.memberAt? r').map fun m => if m.ref = r then f m else m :=
  g.memberAt?_mapMembers _ r'

end ClassGraph

end DocGraph
