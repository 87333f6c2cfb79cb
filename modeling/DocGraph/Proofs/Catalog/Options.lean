import DocGraph.Proofs.Catalog.Draft

/-!
# Listener options

Whether listeners have options makes no difference to which members there are: the catalog with options
is the one without them, with every event amended. An event that is written without parameters has the
options as its only one.
-/

namespace DocGraph

open Catalog Fragment Record

variable {f : Fragment} {key : MemberKey} {options : Bool}

/-! ### Single members -/

lemma Fragment.subject_of_key? (h : f.key? = some key) : f.subject = .member key.kind := by
  rw [Fragment.key?] at h
  split at h
  · simp at h
  · next hs => rw [hs, ← Option.some_inj.1 h]

/-- An event is amended unless it has the options already. -/
lemma Record.params_amend_of_event (hf : f.subject = .member .event) :
    (amend true f).params =
      if f.params.any (·.name = optionsParam.name) then f.params else f.params ++ [optionsParam] := by
  rw [amend, if_pos rfl, withOptions]
  cases f.params.any (·.name = optionsParam.name) <;> simp [hf]

/-! ### Made members -/

namespace Record

variable {r : Record}

lemma enumType_addOptions (r : Record) (e : EnumSpec) : enumType (addOptions r) e = enumType r e := by
  have hsubject : ∀ f, (withOptions f).subject = f.subject := fun f => by
    rw [withOptions]
    split <;> rfl
  have htype : ∀ f, (withOptions f).type = f.type := fun f => by
    rw [withOptions]
    split <;> rfl
  simp [enumType, addOptions, OrderedMap.values, OrderedMap.map, List.filter_map, Function.comp_def,
    hsubject, htype]

/-- The values of an enumeration do not depend on options. -/
lemma valueProperties_equip (options : Bool) (r : Record) :
    (r.equip options).valueProperties = (r.equip false).valueProperties := by
  cases options with
  | false => rfl
  | true =>
    change (addOptions (supplyAccessors r)).valueProperties = (supplyAccessors r).valueProperties
    simp only [valueProperties, enumType_addOptions]
    rfl

lemma exists_of_mem_valueProperties {m : MemberKey × Fragment} (hm : m ∈ r.valueProperties) :
    ∃ type v, m = (⟨.property, v.name⟩, valueProperty r type v) := by
  rw [valueProperties] at hm
  cases he : r.enumeration with
  | none => simp [he] at hm
  | some e =>
    rw [he, Option.elim_some, List.mem_map] at hm
    obtain ⟨v, -, rfl⟩ := hm
    exact ⟨_, v, rfl⟩

lemma made_eq (options : Bool) (r : Record) :
    r.made options = (r.made false).map fun m => (m.1, amend options m.2) := by
  rw [made, made, valueProperties_equip, List.map_append, List.map_map]
  congr 1
  -- properties are not amended
  have hsame : ∀ m ∈ (r.equip false).valueProperties, (m.1, amend options m.2) = m := by
    intro m hm
    obtain ⟨type, v, rfl⟩ := exists_of_mem_valueProperties hm
    cases options <;> rfl
  rw [List.map_congr_left hsame, List.map_id']

/-- With options a record has the same members, but amended. -/
lemma get?_enrich_amend (options : Bool) (r : Record) (key : MemberKey) :
    (r.enrich options).members.get? key =
      ((r.enrich false).members.get? key).map (amend options) := by
  rw [get?_enrich, get?_enrich, made_eq, List.find?_map, Option.map_or, amend_false, Option.map_id,
    Option.map_map, Option.map_map]
  rfl

lemma get?_overlay_amend (options : Bool) (cls : String) (os : List Record) (t : Record)
    (key : MemberKey) :
    ((t.enrich options).overlay cls (os.map (enrich options))).members.get? key =
      (((t.enrich false).overlay cls (os.map (enrich false))).members.get? key).map
        (amend options) := by
  rw [get?_overlay_enrich, get?_overlay_enrich, Option.map_or, get?_enrich_amend options t]
  congr 1
  cases lastGiver os key with
  | none => rfl
  | some o =>
    rw [Option.bind_some, Option.bind_some, get?_enrich_amend options o, Option.map_map,
      Option.map_map]
    exact congrArg (Option.map · _) (funext fun f => ownedBy_amend options f cls)

end Record

/-! ### Catalogs -/

/-- The member of a catalog that a reference means. -/
def Catalog.member? (c : Catalog) (ref : MemberRef) : Option Fragment :=
  (c.get? ref.cls).bind (·.members.get? ref.key)

namespace Draft

variable {fs : List Fragment} {d : Draft} {ref : MemberRef}

/-- With options a catalog has the same members, but amended. -/
lemma member?_catalog (h : d.written.IsNamed) (options : Bool) (ref : MemberRef) :
    (d.catalog options).member? ref = ((d.catalog false).member? ref).map (amend options) := by
  rw [member?, member?, get?_catalog h, get?_catalog h]
  cases d.written.get? ref.cls with
  | none => rfl
  | some t =>
    by_cases hover : t.overrides = none
    · simpa [hover] using get?_overlay_amend options ref.cls _ t ref.key
    · simp [hover]

end Draft

end DocGraph
