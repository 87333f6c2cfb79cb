import DocGraph.Proofs.Catalog.Options

/-!
# Members in their place

A pass over a catalog leaves a member where it is, changes it, makes others of it, or moves it to another
class. What is true of members in their place and survives all of this is true of every member of a
prepared catalog as soon as it is true of those that were gathered. Two properties are of this kind: that
a member stands at its own key in the table of its owner, and that it is not ignored.
-/

namespace DocGraph

open Catalog

/-- What may be said of a fragment that stands at a key in the table of a class. -/
abbrev Placing := String → MemberKey → Fragment → Prop

namespace Placing

/-- What the passes do to members does not make it false. -/
structure IsKept (P : Placing) : Prop where
  moved : ∀ {n key f}, P n key f → ∀ m, P m key (f.ownedBy m)
  amended : ∀ {n key f}, P n key f → P n key (withOptions f)
  derived : ∀ {n key f}, P n key f → ∀ m ∈ accessorsOf f, P n m.1 m.2
  valued : ∀ r type v, P r.name ⟨.property, v.name⟩ (valueProperty r type v)

/-- A member stands at its own key in the table of its owner. -/
def inPlace : Placing := fun n key f => f.owner = some n ∧ f.key? = some key

/-- A member is not ignored. -/
def shown : Placing := fun _ _ f => f.ignored = false

lemma exists_of_mem_accessorsOf {f : Fragment} {m : MemberKey × Fragment} (hm : m ∈ accessorsOf f) :
    ∃ key doc params returns, m = (key, derived f key doc params returns) := by
  rcases List.mem_append.1 hm with hm | hm
  · rcases List.mem_cons.1 hm with rfl | hm
    · exact ⟨_, _, _, _, rfl⟩
    · rw [List.mem_singleton.1 hm]
      exact ⟨_, _, _, _, rfl⟩
  · split at hm
    · rw [List.mem_singleton.1 hm]
      exact ⟨_, _, _, _, rfl⟩
    · simp at hm

lemma isKept_inPlace : inPlace.IsKept := by
  constructor
  · rintro n key f ⟨-, hkey⟩ m
    exact ⟨rfl, hkey⟩
  · rintro n key f ⟨ho, hkey⟩
    obtain ⟨_, h⟩ := Record.amend_eq true f
    rw [Record.amend, if_pos rfl] at h
    rw [h]
    exact ⟨ho, hkey⟩
  · rintro n key f ⟨ho, -⟩ m hm
    obtain ⟨_, _, _, _, rfl⟩ := exists_of_mem_accessorsOf hm
    exact ⟨ho, rfl⟩
  · intro r type v
    exact ⟨rfl, rfl⟩

lemma isKept_shown : shown.IsKept := by
  constructor
  · intro n key f h m
    exact h
  · intro n key f h
    rw [shown, withOptions]
    split <;> exact h
  · intro n key f h m hm
    obtain ⟨_, _, _, _, rfl⟩ := exists_of_mem_accessorsOf hm
    exact h
  · intro r type v
    rfl

end Placing

/-! ### Records -/

namespace Record

variable {P : Placing} {r t : Record} {n : String} {ms : List (MemberKey × Fragment)}

/-- Something is true of all members of a record, as members of the class `n`. -/
def Satisfies (P : Placing) (n : String) (r : Record) : Prop :=
  ∀ key f, r.members.get? key = some f → P n key f

lemma Satisfies.absorb (h : r.Satisfies P n) (hms : ∀ m ∈ ms, P n m.1 (m.2.ownedBy n)) :
    (r.absorb n ms).Satisfies P n := by
  intro key f hf
  rw [get?_absorb, Option.or_eq_some_iff] at hf
  rcases hf with hf | ⟨-, hf⟩
  · obtain ⟨m, hm, rfl⟩ := Option.map_eq_some_iff.1 hf
    have hkey : m.1 = key := by simpa using List.find?_some hm
    exact hkey ▸ hms m (List.mem_reverse.1 (List.mem_of_find?_eq_some hm))
  · exact h key f hf

lemma Satisfies.overlay (hP : P.IsKept) (h : t.Satisfies P n) {os : List Record}
    (hos : ∀ o ∈ os, o.Satisfies P o.name) : (t.overlay n os).Satisfies P n := by
  -- the overrides are applied in order, so the last one is taken off first
  induction os using List.reverseRecOn with
  | nil => exact h
  | append_singleton os o ih =>
    rw [overlay_concat]
    refine (ih fun o ho => hos o (List.mem_append_left _ ho)).absorb fun m hm => ?_
    have ho := hos o (by simp)
    exact hP.moved (ho m.1 m.2 (OrderedMap.get?_eq_some_iff.2 hm)) n

lemma Satisfies.supplyAll (h : r.Satisfies P n) (hms : ∀ m ∈ ms, P n m.1 m.2) :
    (r.supplyAll ms).Satisfies P n := by
  intro key f hf
  rw [get?_supplyAll, Option.or_eq_some_iff] at hf
  rcases hf with hf | ⟨-, hf⟩
  · exact h key f hf
  · obtain ⟨m, hm, rfl⟩ := Option.map_eq_some_iff.1 hf
    have hkey : m.1 = key := by simpa using List.find?_some hm
    exact hkey ▸ hms m (List.mem_of_find?_eq_some hm)

lemma Satisfies.supplyAccessors (hP : P.IsKept) (h : r.Satisfies P n) :
    (supplyAccessors r).Satisfies P n := by
  rw [supplyAccessors_eq]
  refine h.supplyAll fun m hm => ?_
  obtain ⟨f, hf, hm⟩ := List.mem_flatMap.1 hm
  obtain ⟨⟨key, _⟩, he, rfl⟩ := List.mem_map.1 (List.mem_filter.1 hf).1
  exact hP.derived (h key _ (OrderedMap.get?_eq_some_iff.2 he)) m hm

lemma Satisfies.addOptions (hP : P.IsKept) (h : r.Satisfies P n) : (addOptions r).Satisfies P n := by
  intro key f hf
  rw [Catalog.addOptions, OrderedMap.get?_map, Option.map_eq_some_iff] at hf
  obtain ⟨f, hf, rfl⟩ := hf
  exact hP.amended (h key f hf)

lemma Satisfies.expandEnumeration (hP : P.IsKept) (h : r.Satisfies P r.name) :
    (expandEnumeration r).Satisfies P r.name := by
  rw [expandEnumeration_eq]
  refine Satisfies.supplyAll h fun m hm => ?_
  obtain ⟨type, v, rfl⟩ := exists_of_mem_valueProperties hm
  exact hP.valued r type v

lemma Satisfies.enrich (hP : P.IsKept) (h : r.Satisfies P r.name) (options : Bool) :
    (r.enrich options).Satisfies P r.name := by
  have hsupplied := h.supplyAccessors hP
  have hname : (r.equip options).name = r.name := by
    obtain ⟨_, hequip⟩ := r.equip_eq options
    rw [hequip]
  have hequipped : (r.equip options).Satisfies P r.name := by
    rw [equip]
    split
    · exact hsupplied.addOptions hP
    · exact hsupplied
  rw [← hname] at hequipped ⊢
  exact hequipped.expandEnumeration hP

lemma name_supplyAccessors (r : Record) : (Catalog.supplyAccessors r).name = r.name := by
  obtain ⟨_, h⟩ := r.supplyAll_eq r.accessors
  rw [supplyAccessors_eq, h]

lemma name_expandEnumeration (r : Record) : (Catalog.expandEnumeration r).name = r.name := by
  obtain ⟨_, h⟩ := Record.supplyAll_eq
    { r with enumeration := r.enumeration.map fun e => { e with type := enumType r e } }
    r.valueProperties
  rw [expandEnumeration_eq, h]

end Record

/-! ### Passes -/

namespace Catalog

variable {P : Placing} {c : Catalog} {orphans : List Fragment}

/-- Every record is at its own name, and something is true of all members in their place. -/
structure Satisfies (P : Placing) (c : Catalog) : Prop where
  named : c.IsNamed
  records : ∀ n r, c.get? n = some r → r.Satisfies P n

namespace Satisfies

lemma of_member? (h : c.Satisfies P) {ref : MemberRef} {f : Fragment} (hf : c.member? ref = some f) :
    P ref.cls ref.key f := by
  obtain ⟨r, hr, hkey⟩ := Option.bind_eq_some_iff.1 hf
  exact h.records ref.cls r hr ref.key f hkey

lemma map (h : c.Satisfies P) {f : Record → Record} (hname : ∀ r, (f r).name = r.name)
    (hf : ∀ r, r.Satisfies P r.name → (f r).Satisfies P r.name) :
    Satisfies P (c.map fun _ r => f r) := by
  constructor
  · exact h.named.map f hname
  · intro n r' hr'
    rw [OrderedMap.get?_map, Option.map_eq_some_iff] at hr'
    obtain ⟨r, hr, rfl⟩ := hr'
    obtain rfl := h.named n r hr
    exact hf r (h.records _ r hr)

lemma dropIgnored (h : c.Satisfies P) : (dropIgnored c).classes.Satisfies P := by
  constructor
  · exact h.named.dropIgnored
  · intro n r' hr' key f hf
    rw [get?_dropIgnored, Option.map_eq_some_iff] at hr'
    obtain ⟨r, hr, rfl⟩ := hr'
    rw [get?_dropIgnoredMembers, Option.filter_eq_some_iff] at hf
    exact h.records n r (Option.filter_eq_some_iff.1 hr).1 key f hf.1

lemma hoistGlobals (h : c.Satisfies P)
    (ho : ∀ m ∈ globalMembers orphans, P globalName m.1 (m.2.ownedBy globalName)) (unwanted : Bool) :
    (hoistGlobals c orphans unwanted).classes.Satisfies P := by
  refine ⟨h.named.hoistGlobals orphans unwanted, ?_⟩
  rcases hoistGlobals_classes c orphans unwanted with hc | hc <;> rw [hc]
  · exact h.records
  · intro n r hr
    rw [OrderedMap.get?_insert] at hr
    split at hr
    · next hn =>
      rw [← Option.some_inj.1 hr, ← hn]
      refine Record.Satisfies.absorb ?_ ho
      cases hg : c.get? globalName with
      | none =>
        intro key f hf
        simp [globalRecord] at hf
      | some r => exact h.records globalName r hg
    · exact h.records n r hr

lemma addAccessors (hP : P.IsKept) (h : c.Satisfies P) : (addAccessors c).classes.Satisfies P :=
  h.map Record.name_supplyAccessors fun _ hr => hr.supplyAccessors hP

lemma addOptions (hP : P.IsKept) (h : c.Satisfies P) :
    Satisfies P (c.map fun _ r => Catalog.addOptions r) :=
  h.map (fun _ => rfl) fun _ hr => hr.addOptions hP

lemma expandEnumerations (hP : P.IsKept) (h : c.Satisfies P) :
    (expandEnumerations c).classes.Satisfies P :=
  h.map Record.name_expandEnumeration fun _ hr => hr.expandEnumeration hP

lemma enrich (hP : P.IsKept) (h : c.Satisfies P) (options : Bool) :
    Satisfies P (c.map fun _ r => r.enrich options) :=
  h.map (Record.name_enrich options) fun _ hr => hr.enrich hP options

lemma applyOverrides (hP : P.IsKept) (h : c.Satisfies P) : (applyOverrides c).classes.Satisfies P := by
  have hrecord : ∀ n r, (Catalog.applyOverrides c).classes.get? n = some r →
      ∃ t, c.get? n = some t ∧ r = t.overlay n (c.overridesOf n) := by
    intro n r hr
    rw [get?_applyOverrides h.named, Option.bind_eq_some_iff] at hr
    obtain ⟨t, ht, hr⟩ := hr
    split at hr
    · exact ⟨t, ht, (Option.some_inj.1 hr).symm⟩
    · simp at hr
  constructor
  · intro n r hr
    obtain ⟨t, ht, rfl⟩ := hrecord n r hr
    rw [Record.name_overlay, h.named n t ht]
  · intro n r hr
    obtain ⟨t, ht, rfl⟩ := hrecord n r hr
    refine (h.records n t ht).overlay hP fun o ho => ?_
    exact h.records _ o (h.named.get?_name (List.mem_filter.1 ho).1)

end Satisfies

/-! ### Gathered and shown members -/

lemma satisfies_gathered {fs : List Fragment} {a : Aggregation} (h : a.Gathers fs) :
    a.classes.Satisfies Placing.inPlace := by
  constructor
  · exact Draft.isNamed_gathered h
  · intro n r hr key f hf
    have hmem : f ∈ Fragment.definitions fs n key := h.mem_definitions (by rw [record, hr]; exact hf)
    have hof := (List.mem_filter.1 hmem).2
    rw [decide_eq_true_eq] at hof
    exact ⟨(Fragment.class?_eq_some_iff.1 hof.1).1, hof.2⟩

/-- Global members stand at their keys once they are owned by the class of global members. -/
lemma inPlace_of_mem_globalMembers {m : MemberKey × Fragment} (hm : m ∈ globalMembers orphans) :
    Placing.inPlace globalName m.1 (m.2.ownedBy globalName) := by
  obtain ⟨f, -, hf⟩ := List.mem_filterMap.1 hm
  obtain ⟨key, hkey, rfl⟩ := Option.map_eq_some_iff.1 hf
  exact ⟨rfl, hkey⟩

lemma shown_of_mem_globalMembers {m : MemberKey × Fragment} (hm : m ∈ globalMembers orphans) :
    Placing.shown globalName m.1 (m.2.ownedBy globalName) := by
  obtain ⟨f, hf, hm⟩ := List.mem_filterMap.1 hm
  obtain ⟨key, -, rfl⟩ := Option.map_eq_some_iff.1 hm
  simpa [Placing.shown, Fragment.ownedBy] using (List.mem_filter.1 hf).2

/-- Nothing that is ignored is left once it has been dropped. -/
lemma satisfies_shown (h : c.IsNamed) : (dropIgnored c).classes.Satisfies Placing.shown := by
  constructor
  · exact h.dropIgnored
  · intro n r' hr' key f hf
    rw [get?_dropIgnored, Option.map_eq_some_iff] at hr'
    obtain ⟨r, -, rfl⟩ := hr'
    rw [get?_dropIgnoredMembers, Option.filter_eq_some_iff] at hf
    simpa [Placing.shown] using hf.2

end Catalog

/-! ### Drafts -/

namespace Draft

variable {fs : List Fragment} {d : Draft} {P : Placing} {ref : MemberRef} {f : Fragment}
  {options : Bool}

/-- What is true of the members that are not ignored, and of the global ones, is true of all. -/
lemma satisfies_catalog (hP : P.IsKept) (h : (dropIgnored d.gathered.classes).classes.Satisfies P)
    (hglobals : ∀ m ∈ globalMembers d.gathered.orphans, P globalName m.1 (m.2.ownedBy globalName))
    (options : Bool) : (d.catalog options).Satisfies P := by
  have hwritten : d.written.Satisfies P := h.hoistGlobals hglobals d.unwanted
  exact (hwritten.enrich hP options).applyOverrides hP

lemma inPlace_catalog (h : d.gathered.Gathers fs) (options : Bool) :
    (d.catalog options).Satisfies Placing.inPlace := by
  apply satisfies_catalog Placing.isKept_inPlace
  · exact (satisfies_gathered h).dropIgnored
  · intro m hm
    exact inPlace_of_mem_globalMembers hm

lemma shown_catalog (h : d.gathered.Gathers fs) (options : Bool) :
    (d.catalog options).Satisfies Placing.shown := by
  apply satisfies_catalog Placing.isKept_shown
  · exact satisfies_shown (isNamed_gathered h)
  · intro m hm
    exact shown_of_mem_globalMembers hm

/-- Members are at their keys. -/
lemma key?_of_catalog (h : d.gathered.Gathers fs) (hf : (d.catalog options).member? ref = some f) :
    f.key? = some ref.key :=
  ((inPlace_catalog h options).of_member? hf).2

end Draft

end DocGraph
