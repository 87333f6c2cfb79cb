import DocGraph.Proofs.Catalog.Placement

/-!
# Synthesis

Accessors and the values of enumerations are supplied: a record that has a member keeps it, and one that
does not gets it at the end of its table. So a table only grows at its end, whatever the names of the made
members are, and in the end every member that was asked for is there. Nothing that is made asks for
accessors itself, so nothing more is asked for then.
-/

namespace DocGraph

open Catalog

/-! ### Entries -/

namespace OrderedMap

variable {κ α : Type} [DecidableEq κ] {m : OrderedMap κ α} {k : κ}

lemma insertEntry_of_not_mem (v : α) {es : List (κ × α)} (h : k ∉ es.map Prod.fst) :
    insertEntry k v es = es ++ [(k, v)] := by
  induction es with
  | nil => rfl
  | cons e es ih =>
    rw [List.map_cons, List.mem_cons, not_or] at h
    rw [insertEntry, if_neg (Ne.symm h.1), ih h.2, List.cons_append]

/-- A new key comes last. -/
lemma entries_insert_of_not_mem (h : k ∉ m.keys) (v : α) :
    (m.insert k v).entries = m.entries ++ [(k, v)] :=
  insertEntry_of_not_mem v h

end OrderedMap

/-! ### Supplied members -/

namespace Record

variable {r r' : Record} {ms : List (MemberKey × Fragment)} {key : MemberKey}

/-- The members that are supplied and were not there stand behind the others. -/
lemma exists_entries_supplyAll (r : Record) (ms : List (MemberKey × Fragment)) :
    ∃ made, made.Sublist ms ∧
      (r.supplyAll ms).members.entries = r.members.entries ++ made := by
  induction ms generalizing r with
  | nil => exact ⟨[], .slnil, (List.append_nil _).symm⟩
  | cons m ms ih =>
    obtain ⟨made, hsub, hentries⟩ := ih (r.supply m.1 m.2)
    rw [supplyAll, List.foldl_cons, ← supplyAll, hentries, supply]
    split
    · exact ⟨made, hsub.cons m, rfl⟩
    · next hm =>
      rw [OrderedMap.contains_iff] at hm
      refine ⟨m :: made, hsub.cons_cons m, ?_⟩
      simp [OrderedMap.entries_insert_of_not_mem hm]

lemma mem_keys_supplyAll :
    key ∈ (r.supplyAll ms).members.keys ↔ key ∈ r.members.keys ∨ key ∈ ms.map Prod.fst := by
  rw [← OrderedMap.get?_isSome_iff, ← OrderedMap.get?_isSome_iff, get?_supplyAll, Option.isSome_or,
    Bool.or_eq_true, Option.isSome_map, List.find?_isSome]
  simp

/-- The table of a record goes on with members that were made. They stand at their own keys, which were
free before, and none of them asks for accessors. Nothing else changes, except that the type of an
enumeration may be settled. -/
structure IsExtendedTo (r r' : Record) : Prop where
  table : ∃ made, r'.members.entries = r.members.entries ++ made ∧
    ∀ m ∈ made, m.1 ∉ r.members.keys ∧ m.2.key? = some m.1 ∧ wantsAccessors m.2 = false
  rest : r' = { r with members := r'.members, enumeration := r'.enumeration }

/-- Whoever supplies members that are at their keys and do not ask for accessors extends a table. -/
lemma isExtendedTo_supplyAll (r : Record)
    (hms : ∀ m ∈ ms, m.2.key? = some m.1 ∧ wantsAccessors m.2 = false) :
    r.IsExtendedTo (r.supplyAll ms) := by
  constructor
  · obtain ⟨made, hsub, hentries⟩ := r.exists_entries_supplyAll ms
    refine ⟨made, hentries, fun m hm => ⟨fun hkey => ?_, hms m (hsub.subset hm)⟩⟩
    -- no key is in a table twice
    have hdistinct := (r.supplyAll ms).members.distinct
    rw [hentries, List.map_append, List.nodup_append] at hdistinct
    exact hdistinct.2.2 _ hkey _ (List.mem_map_of_mem hm) rfl
  · obtain ⟨members, h⟩ := r.supplyAll_eq ms
    rw [h]

/-! ### Accessors -/

/-- Every property that asks for accessors has them. -/
def HasAccessors (r : Record) : Prop :=
  ∀ f ∈ r.members.values, wantsAccessors f →
    ⟨.method, "get" ++ Text.capitalizeFirst f.name⟩ ∈ r.members.keys ∧
    ⟨.method, "set" ++ Text.capitalizeFirst f.name⟩ ∈ r.members.keys ∧
    (f.evented → ⟨.event, Text.lower f.name ++ "change"⟩ ∈ r.members.keys)

lemma key?_and_not_wantsAccessors_of_mem_accessors {m : MemberKey × Fragment}
    (hm : m ∈ r.accessors) : m.2.key? = some m.1 ∧ wantsAccessors m.2 = false := by
  obtain ⟨f, -, hm⟩ := List.mem_flatMap.1 hm
  obtain ⟨_, _, _, _, rfl⟩ := Placing.exists_of_mem_accessorsOf hm
  exact ⟨rfl, by simp [wantsAccessors, derived]⟩

/-- Accessors ask for no accessors. -/
lemma accessors_supplyAccessors (r : Record) : (supplyAccessors r).accessors = r.accessors := by
  obtain ⟨made, hsub, hentries⟩ := r.exists_entries_supplyAll r.accessors
  have hmade : (made.map Prod.snd).filter wantsAccessors = [] := by
    refine List.filter_eq_nil_iff.2 fun f hf => ?_
    obtain ⟨m, hm, rfl⟩ := List.mem_map.1 hf
    rw [(key?_and_not_wantsAccessors_of_mem_accessors (hsub.subset hm)).2]
    exact Bool.false_ne_true
  rw [supplyAccessors_eq, accessors, OrderedMap.values, hentries, List.map_append,
    List.filter_append, hmade, List.append_nil]
  rfl

/-- All accessors that are asked for are there in the end. -/
lemma mem_keys_of_mem_accessors {m : MemberKey × Fragment}
    (hm : m ∈ (supplyAccessors r).accessors) : m.1 ∈ (supplyAccessors r).members.keys := by
  rw [accessors_supplyAccessors] at hm
  exact mem_keys_supplyAll.2 (.inr (List.mem_map_of_mem hm))

lemma hasAccessors_supplyAccessors (r : Record) : (supplyAccessors r).HasAccessors := by
  intro f hf hwants
  have hkey : ∀ m ∈ accessorsOf f, m.1 ∈ (supplyAccessors r).members.keys := fun m hm =>
    mem_keys_of_mem_accessors (List.mem_flatMap.2 ⟨f, List.mem_filter.2 ⟨hf, hwants⟩, hm⟩)
  refine ⟨hkey (getterKey f, getter f) ?_, hkey (setterKey f, setter f) ?_, fun hevented =>
    hkey (changeKey f, changeEvent f) ?_⟩ <;> simp [accessorsOf, *]

/-! ### Enumerations -/

/-- An enumeration has a type, and a property for each of its values. -/
def HasValues (r : Record) : Prop :=
  ∀ e ∈ r.enumeration, e.type ≠ "" ∧ ∀ v ∈ e.values, ⟨.property, v.name⟩ ∈ r.members.keys

/-- The type of an enumeration is settled. -/
lemma enumType_ne_empty (r : Record) (e : EnumSpec) : enumType r e ≠ "" := by
  rw [enumType]
  cases h : firstNonempty _ with
  | none => decide
  | some s => simpa using List.find?_some h

lemma enumeration_expandEnumeration (r : Record) :
    (expandEnumeration r).enumeration =
      r.enumeration.map fun e => { e with type := enumType r e } := by
  obtain ⟨members, h⟩ := Record.supplyAll_eq
    { r with enumeration := r.enumeration.map fun e => { e with type := enumType r e } }
    r.valueProperties
  rw [expandEnumeration_eq, h]

lemma isExtendedTo_expandEnumeration (r : Record) : r.IsExtendedTo (expandEnumeration r) := by
  have hmade : ∀ m ∈ r.valueProperties, m.2.key? = some m.1 ∧ wantsAccessors m.2 = false := by
    intro m hm
    obtain ⟨type, v, rfl⟩ := exists_of_mem_valueProperties hm
    exact ⟨rfl, by simp [wantsAccessors, valueProperty]⟩
  rw [expandEnumeration_eq]
  obtain ⟨htable, hrest⟩ := isExtendedTo_supplyAll
    { r with enumeration := r.enumeration.map fun e => { e with type := enumType r e } } hmade
  exact ⟨htable, by rw [hrest]⟩

lemma hasValues_expandEnumeration (r : Record) : (expandEnumeration r).HasValues := by
  intro e' he'
  rw [enumeration_expandEnumeration, Option.mem_def, Option.map_eq_some_iff] at he'
  obtain ⟨e, he, rfl⟩ := he'
  refine ⟨r.enumType_ne_empty e, fun v hv => ?_⟩
  rw [expandEnumeration_eq, mem_keys_supplyAll, valueProperties, he]
  exact .inr (List.mem_map.2 ⟨_, List.mem_map_of_mem hv, rfl⟩)

end Record

/-! ### Catalogs -/

namespace Catalog

open Record

/-- Members are only added, and all that are asked for are there in the end: accessors of properties, and
properties for the values of enumerations, which then have a type. -/
theorem synthesis_extends_tables (c : Catalog) :
    OrderedMap.keys (addAccessors c).classes = OrderedMap.keys c ∧
    OrderedMap.keys (expandEnumerations c).classes = OrderedMap.keys c ∧
    ∀ n r, c.get? n = some r →
      (∃ r', (addAccessors c).classes.get? n = some r' ∧ r.IsExtendedTo r' ∧
        r'.enumeration = r.enumeration ∧ r'.HasAccessors) ∧
      ∃ r', (expandEnumerations c).classes.get? n = some r' ∧ r.IsExtendedTo r' ∧
        r'.enumeration.map (·.values) = r.enumeration.map (·.values) ∧ r'.HasValues := by
  refine ⟨OrderedMap.keys_map .., OrderedMap.keys_map .., fun n r hr => ⟨?_, ?_⟩⟩
  · refine ⟨supplyAccessors r, by simp [addAccessors, hr], ?_, ?_, r.hasAccessors_supplyAccessors⟩
    · exact r.isExtendedTo_supplyAll fun m hm => key?_and_not_wantsAccessors_of_mem_accessors hm
    · obtain ⟨_, h⟩ := r.supplyAll_eq r.accessors
      rw [supplyAccessors_eq, h]
  · refine ⟨expandEnumeration r, by simp [expandEnumerations, hr],
      r.isExtendedTo_expandEnumeration, ?_, r.hasValues_expandEnumeration⟩
    rw [enumeration_expandEnumeration, Option.map_map]
    rfl

/-- A panel with a documented getter and properties whose accessors get in each other's way, and sides of
which one is documented and another one named twice. -/
def crowded : Catalog := .ofList <|
  [{ name := "Panel"
     members := .ofList [
      (⟨.method, "getTitle"⟩, { subject := .member .method, name := "getTitle", doc := "As shown." }),
      (⟨.cfg, "title"⟩,
        { subject := .member .cfg, name := "title", accessor := true, evented := true }),
      (⟨.property, "Title"⟩,
        { subject := .member .property, name := "Title", accessor := true, evented := true }),
      (⟨.cfg, "ßeta"⟩, { subject := .member .cfg, name := "ßeta", accessor := true })] },
    { name := "Side"
      enumeration := some { values := [{ name := "left" }, { name := "right" }, { name := "right" }] }
      members := .ofList [
        (⟨.property, "left"⟩, { subject := .member .property, name := "left", type := "Number" })]
    }].map fun r => (r.name, r)

theorem synthesis_extends_tables_crowded :
    (∃ r r', crowded.get? "Panel" = some r ∧
      (addAccessors crowded).classes.get? "Panel" = some r' ∧ r.IsExtendedTo r' ∧ r'.HasAccessors ∧
      r'.members.keys = r.members.keys ++
        [⟨.method, "setTitle"⟩, ⟨.event, "titlechange"⟩, ⟨.method, "getSSeta"⟩,
          ⟨.method, "setSSeta"⟩]) ∧
    ∃ r r', crowded.get? "Side" = some r ∧
      (expandEnumerations crowded).classes.get? "Side" = some r' ∧ r.IsExtendedTo r' ∧ r'.HasValues ∧
      r'.enumeration.map (·.type) = some "Number" ∧
      r'.members.keys = [⟨.property, "left"⟩, ⟨.property, "right"⟩] := by
  obtain ⟨-, -, h⟩ := synthesis_extends_tables crowded
  obtain ⟨⟨panel, hpanel, hextended, -, haccessors⟩, -⟩ := h "Panel" _ rfl
  obtain ⟨-, side, hside, hextended', -, hvalues⟩ := h "Side" _ rfl
  have hkeys : ((addAccessors crowded).classes.get? "Panel").map (·.members.keys) =
      some [⟨.method, "getTitle"⟩, ⟨.cfg, "title"⟩, ⟨.property, "Title"⟩, ⟨.cfg, "ßeta"⟩,
        ⟨.method, "setTitle"⟩, ⟨.event, "titlechange"⟩, ⟨.method, "getSSeta"⟩,
        ⟨.method, "setSSeta"⟩] := by
    decide +kernel
  have hvalued : ((expandEnumerations crowded).classes.get? "Side").map
      (fun r => (r.enumeration.map (·.type), r.members.keys)) =
      some (some "Number", [⟨.property, "left"⟩, ⟨.property, "right"⟩]) := by
    decide +kernel
  rw [hpanel, Option.map_some, Option.some_inj] at hkeys
  rw [hside, Option.map_some, Option.some_inj, Prod.mk.injEq] at hvalued
  exact ⟨⟨_, panel, rfl, hpanel, hextended, haccessors, hkeys⟩,
    _, side, rfl, hside, hextended', hvalues, hvalued.1, hvalued.2⟩

end Catalog

end DocGraph
