import DocGraph.Catalog.Accessors
import DocGraph.Catalog.Enumerations
import DocGraph.Catalog.FrameworkRule
import DocGraph.Catalog.Globals
import Mathlib.Data.List.Induction
import Mathlib.Tactic.Common

/-!
# Tables of members

Passes put members into the table of a record in two ways. A definition replaces the one that is there,
so of several definitions the last one stays; a supplied member stays out if there is one, so the first
one stays. What is in the table in the end is said by one equation for each of the two, and the
equations for accessors and enumerations are cases of the second one.
-/

namespace DocGraph

/-- A fragment as a member of a class. -/
def Fragment.ownedBy (f : Fragment) (cls : String) : Fragment := { f with owner := some cls }

namespace Record

variable {r : Record} {ms : List (MemberKey × Fragment)} {key : MemberKey}

/-! ### Definitions -/

/-- The record of a class with some more definitions, which come to belong to the class. -/
def absorb (cls : String) (r : Record) (ms : List (MemberKey × Fragment)) : Record :=
  ms.foldl (fun r m => r.define m.1 (m.2.ownedBy cls)) r

lemma absorb_concat (cls : String) (r : Record) (ms : List (MemberKey × Fragment))
    (m : MemberKey × Fragment) :
    r.absorb cls (ms ++ [m]) = (r.absorb cls ms).define m.1 (m.2.ownedBy cls) := by
  rw [absorb, List.foldl_append]
  rfl

@[simp] lemma name_absorb (cls : String) (r : Record) (ms : List (MemberKey × Fragment)) :
    (r.absorb cls ms).name = r.name := by
  induction ms generalizing r with
  | nil => rfl
  | cons m ms ih => exact ih (r.define m.1 (m.2.ownedBy cls))

@[simp] lemma overrides_absorb (cls : String) (r : Record) (ms : List (MemberKey × Fragment)) :
    (r.absorb cls ms).overrides = r.overrides := by
  induction ms generalizing r with
  | nil => rfl
  | cons m ms ih => exact ih (r.define m.1 (m.2.ownedBy cls))

/-- The last definition of a member is in the table, or else the one that was there. -/
lemma get?_absorb (cls : String) (r : Record) (ms : List (MemberKey × Fragment)) (key : MemberKey) :
    (r.absorb cls ms).members.get? key =
      ((ms.reverse.find? (·.1 = key)).map fun m => m.2.ownedBy cls).or (r.members.get? key) := by
  induction ms using List.reverseRecOn with
  | nil => rfl
  | append_singleton ms m ih =>
    rw [absorb_concat, define, OrderedMap.get?_insert, ih, List.reverse_append, List.reverse_singleton,
      List.singleton_append, List.find?_cons]
    by_cases hm : m.1 = key <;> simp [hm]

/-- The members of another record take the place of those that are there. -/
lemma get?_absorb_entries (cls : String) (r o : Record) (key : MemberKey) :
    (r.absorb cls o.members.entries).members.get? key =
      ((o.members.get? key).map (·.ownedBy cls)).or (r.members.get? key) := by
  rw [get?_absorb, ← o.members.find?_reverse_entries, Option.map_map]
  rfl

/-! ### Supplied members -/

/-- A record with some members supplied. -/
def supplyAll (r : Record) (ms : List (MemberKey × Fragment)) : Record :=
  ms.foldl (fun r m => r.supply m.1 m.2) r

lemma get?_supply (r : Record) (key j : MemberKey) (f : Fragment) :
    (r.supply key f).members.get? j =
      (r.members.get? j).or (if key = j then some f else none) := by
  rw [supply]
  split
  · next hc =>
    rw [OrderedMap.contains_iff, ← OrderedMap.get?_isSome_iff, Option.isSome_iff_exists] at hc
    obtain ⟨f', hf'⟩ := hc
    by_cases hj : key = j
    · simp [← hj, hf']
    · simp [hj]
  · next hc =>
    rw [OrderedMap.contains_iff, ← OrderedMap.get?_eq_none_iff] at hc
    rw [OrderedMap.get?_insert]
    by_cases hj : key = j
    · simp [← hj, hc]
    · simp [hj]

/-- The member that was there is in the table, or else the first one supplied. -/
lemma get?_supplyAll (r : Record) (ms : List (MemberKey × Fragment)) (key : MemberKey) :
    (r.supplyAll ms).members.get? key =
      (r.members.get? key).or ((ms.find? (·.1 = key)).map Prod.snd) := by
  induction ms generalizing r with
  | nil => simp [supplyAll]
  | cons m ms ih =>
    rw [supplyAll, List.foldl_cons, ← supplyAll, ih, get?_supply, Option.or_assoc, List.find?_cons]
    by_cases hm : m.1 = key <;> simp [hm]

lemma supply_eq (r : Record) (key : MemberKey) (f : Fragment) :
    ∃ members, r.supply key f = { r with members } := by
  rw [supply]
  split
  · exact ⟨r.members, rfl⟩
  · exact ⟨_, rfl⟩

/-- Supplying members changes nothing but the table. -/
lemma supplyAll_eq (r : Record) (ms : List (MemberKey × Fragment)) :
    ∃ members, r.supplyAll ms = { r with members } := by
  induction ms generalizing r with
  | nil => exact ⟨r.members, rfl⟩
  | cons m ms ih =>
    obtain ⟨_, hm⟩ := r.supply_eq m.1 m.2
    obtain ⟨members, hms⟩ := ih (r.supply m.1 m.2)
    exact ⟨members, by rw [supplyAll, List.foldl_cons, ← supplyAll, hms, hm]⟩

/-! ### Members that are made -/

open Catalog

/-- The accessors that the properties of a record ask for. -/
def accessors (r : Record) : List (MemberKey × Fragment) :=
  (r.members.values.filter wantsAccessors).flatMap accessorsOf

lemma supplyAccessors_eq (r : Record) : supplyAccessors r = r.supplyAll r.accessors := rfl

/-- The properties for the values of an enumeration. -/
def valueProperties (r : Record) : List (MemberKey × Fragment) :=
  r.enumeration.elim [] fun e =>
    e.values.map fun v => (⟨.property, v.name⟩, valueProperty r (enumType r e) v)

lemma expandEnumeration_eq (r : Record) :
    expandEnumeration r =
      Record.supplyAll
        { r with enumeration := r.enumeration.map fun e => { e with type := enumType r e } }
        r.valueProperties := by
  cases h : r.enumeration with
  | none =>
    rw [expandEnumeration, valueProperties, h]
    change r = { r with enumeration := none }
    rw [← h]
  | some e =>
    rw [expandEnumeration, valueProperties, supplyAll, h, Option.elim_some, List.foldl_map]
    rfl

/-- A record with its accessors and its options. -/
def equip (options : Bool) (r : Record) : Record :=
  if options then addOptions (supplyAccessors r) else supplyAccessors r

/-- A record with its accessors, its options and its values. -/
def enrich (options : Bool) (r : Record) : Record := expandEnumeration (equip options r)

/-- A member with its options. -/
def amend (options : Bool) (f : Fragment) : Fragment := if options then withOptions f else f

@[simp] lemma amend_false : amend false = id := rfl

lemma amend_eq (options : Bool) (f : Fragment) : ∃ params, amend options f = { f with params } := by
  rw [amend, withOptions]
  split_ifs
  · exact ⟨_, rfl⟩
  · exact ⟨f.params, rfl⟩
  · exact ⟨f.params, rfl⟩

@[simp] lemma doc_amend (options : Bool) (f : Fragment) : (amend options f).doc = f.doc := by
  obtain ⟨_, h⟩ := amend_eq options f
  rw [h]

lemma ownedBy_amend (options : Bool) (f : Fragment) (cls : String) :
    (amend options f).ownedBy cls = amend options (f.ownedBy cls) := by
  cases options with
  | false => rfl
  | true =>
    rw [amend, amend, if_pos rfl, if_pos rfl, withOptions, withOptions,
      apply_ite (fun f : Fragment => f.ownedBy cls)]
    rfl

/-- The members that are made for a record if it does not have them. -/
def made (options : Bool) (r : Record) : List (MemberKey × Fragment) :=
  r.accessors.map (fun m => (m.1, amend options m.2)) ++ (r.equip options).valueProperties

/-- The keys of the members that a record asks for. -/
def asked (r : Record) : List MemberKey :=
  r.accessors.map Prod.fst ++
    r.enumeration.elim [] fun e => e.values.map fun v => ⟨.property, v.name⟩

lemma equip_eq (options : Bool) (r : Record) : ∃ members, r.equip options = { r with members } := by
  obtain ⟨_, h⟩ := r.supplyAll_eq r.accessors
  rw [equip, supplyAccessors_eq, h]
  cases options with
  | false => exact ⟨_, rfl⟩
  | true => exact ⟨_, rfl⟩

lemma get?_equip (options : Bool) (r : Record) (key : MemberKey) :
    (r.equip options).members.get? key =
      ((r.supplyAll r.accessors).members.get? key).map (amend options) := by
  rw [equip, supplyAccessors_eq]
  cases options with
  | false => exact Option.map_id'.symm
  | true => exact OrderedMap.get?_map _ _ key

lemma enrich_eq (options : Bool) (r : Record) :
    ∃ members enumeration, r.enrich options = { r with members, enumeration } := by
  obtain ⟨_, hequip⟩ := r.equip_eq options
  rw [enrich, expandEnumeration_eq, hequip]
  obtain ⟨members, h⟩ := Record.supplyAll_eq _ _
  exact ⟨members, _, h⟩

@[simp] lemma name_enrich (options : Bool) (r : Record) : (r.enrich options).name = r.name := by
  obtain ⟨_, _, h⟩ := r.enrich_eq options
  rw [h]

@[simp] lemma overrides_enrich (options : Bool) (r : Record) :
    (r.enrich options).overrides = r.overrides := by
  obtain ⟨_, _, h⟩ := r.enrich_eq options
  rw [h]

/-- A member that is there stays, and only one that is not there is made. -/
lemma get?_enrich (options : Bool) (r : Record) (key : MemberKey) :
    (r.enrich options).members.get? key =
      ((r.members.get? key).map (amend options)).or
        (((r.made options).find? (·.1 = key)).map Prod.snd) := by
  rw [enrich, expandEnumeration_eq, get?_supplyAll, made, List.find?_append, Option.map_or,
    List.find?_map, Option.map_map, ← Option.or_assoc]
  change ((r.equip options).members.get? key).or _ = _
  rw [get?_equip, get?_supplyAll, Option.map_or, Option.map_map]
  rfl

lemma map_fst_made (options : Bool) (r : Record) : (r.made options).map Prod.fst = r.asked := by
  obtain ⟨_, h⟩ := r.equip_eq options
  rw [made, asked, valueProperties, h, List.map_append, List.map_map]
  cases r.enumeration with
  | none => rfl
  | some e => simp [Function.comp_def]

end Record

end DocGraph
