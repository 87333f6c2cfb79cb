import DocGraph.Catalog.Overrides
import DocGraph.Proofs.Catalog.Table

/-!
# Overridden classes

Overrides are applied one after the other to a catalog that shrinks and changes on the way. Since no
override has an effect on another one, each of them gives away the members that it has from the start.
What is left is the classes that override nothing, each with the members of its overrides, the later
ones in place of the earlier ones.
-/

namespace DocGraph

namespace Record

variable {os : List Record} {t : Record}

/-- The record of a class with the members of some others. -/
def overlay (cls : String) (os : List Record) (t : Record) : Record :=
  os.foldl (fun t o => t.absorb cls o.members.entries) t

lemma overlay_concat (cls : String) (os : List Record) (o t : Record) :
    t.overlay cls (os ++ [o]) = (t.overlay cls os).absorb cls o.members.entries := by
  rw [overlay, List.foldl_append]
  rfl

@[simp] lemma name_overlay (cls : String) (os : List Record) (t : Record) :
    (t.overlay cls os).name = t.name := by
  induction os using List.reverseRecOn with
  | nil => rfl
  | append_singleton os o ih => rw [overlay_concat, name_absorb, ih]

@[simp] lemma overrides_overlay (cls : String) (os : List Record) (t : Record) :
    (t.overlay cls os).overrides = t.overrides := by
  induction os using List.reverseRecOn with
  | nil => rfl
  | append_singleton os o ih => rw [overlay_concat, overrides_absorb, ih]

/-- A member is that of the last record that has it. -/
lemma get?_overlay (cls : String) (os : List Record) (t : Record) (key : MemberKey) :
    (t.overlay cls os).members.get? key =
      (os.reverse.findSome? fun o => (o.members.get? key).map (·.ownedBy cls)).or
        (t.members.get? key) := by
  induction os using List.reverseRecOn with
  | nil => rfl
  | append_singleton os o ih =>
    rw [overlay_concat, get?_absorb_entries, ih, List.reverse_append, List.reverse_singleton,
      List.singleton_append, List.findSome?_cons]
    cases (o.members.get? key).map (·.ownedBy cls) <;> rfl

end Record

namespace Catalog

variable {c : Catalog} {r t : Record} {n : String}

/-- Every record is at its own name. -/
def IsNamed (c : Catalog) : Prop := ∀ n r, c.get? n = some r → r.name = n

lemma IsNamed.get?_name (h : c.IsNamed) (hr : r ∈ c.values) : c.get? r.name = some r := by
  obtain ⟨⟨n, r'⟩, he, rfl⟩ := List.mem_map.1 hr
  have hn : c.get? n = some r' := OrderedMap.get?_eq_some_iff.2 he
  rw [h n r' hn, hn]

lemma IsNamed.insert (h : c.IsNamed) (r : Record) : IsNamed (c.insert r.name r) := by
  intro n r' hr'
  rw [OrderedMap.get?_insert] at hr'
  split at hr'
  · next hn => rw [← Option.some_inj.1 hr', hn]
  · exact h n r' hr'

lemma IsNamed.map (h : c.IsNamed) (f : Record → Record) (hf : ∀ r, (f r).name = r.name) :
    IsNamed (c.map fun _ r => f r) := by
  intro n r' hr'
  rw [OrderedMap.get?_map, Option.map_eq_some_iff] at hr'
  obtain ⟨r, hr, rfl⟩ := hr'
  rw [hf, h n r hr]

/-! ### One override -/

/-- Definitions that are put in one after the other are absorbed. -/
lemma fst_foldl_defineIn (cls : String) (ms : List (MemberKey × Fragment)) (s : Record × Journal) :
    (ms.foldl (fun s m => defineIn cls s m.1 m.2) s).1 = s.1.absorb cls ms := by
  induction ms generalizing s with
  | nil => rfl
  | cons m ms ih => exact ih _

lemma overrideTarget?_eq_some_iff :
    overrideTarget? c r = some t ↔
      ∃ n, r.overrides = some n ∧ c.get? n = some t ∧ t.overrides = none := by
  simp only [overrideTarget?, Option.filter_eq_some_iff, Option.bind_eq_some_iff,
    Option.isNone_iff_eq_none, ← exists_and_right, and_assoc]

/-- An override changes its target alone. -/
lemma get?_applyOverride (h : c.IsNamed) (r : Record) (n : String) :
    (applyOverride c r).1.get? n = (c.get? n).map fun t =>
      if t.overrides = none ∧ r.overrides = some n then t.absorb n r.members.entries else t := by
  rw [applyOverride]
  cases htarget : overrideTarget? c r with
  | none =>
    cases hn : c.get? n with
    | none => rfl
    | some t =>
      have hnot : ¬(t.overrides = none ∧ r.overrides = some n) := fun ⟨ht, hr⟩ => by
        simp [overrideTarget?_eq_some_iff.2 ⟨n, hr, hn, ht⟩] at htarget
      simp [hnot]
  | some target =>
    obtain ⟨m, hr, hm, ht⟩ := overrideTarget?_eq_some_iff.1 htarget
    obtain rfl : target.name = m := h m target hm
    simp only [OrderedMap.get?_insert, fst_foldl_defineIn]
    by_cases hn : target.name = n
    · simp [← hn, hm, ht, hr]
    · cases c.get? n <;> simp [hn, hr]

/-! ### All overrides -/

/-- The classes that override a class. -/
def overridesOf (c : Catalog) (n : String) : List Record := c.values.filter (·.overrides = some n)

lemma filter_overriding (c : Catalog) (n : String) :
    (c.values.filter (·.overrides.isSome)).filter (·.overrides = some n) = c.overridesOf n := by
  rw [List.filter_filter, overridesOf]
  refine List.filter_congr fun r _ => ?_
  cases r.overrides <;> simp

/-- The record of a class after some overrides. -/
def afterOverrides (c : Catalog) (applied : List Record) (n : String) : Option Record :=
  (c.get? n).bind fun t =>
    if t.overrides = none then some (t.overlay n (applied.filter (·.overrides = some n)))
    else if n ∈ applied.map Record.name then none
    else some t

lemma afterOverrides_name (h : c.IsNamed) {applied : List Record}
    (ht : c.afterOverrides applied n = some t) : t.name = n := by
  obtain ⟨r, hr, ht⟩ := Option.bind_eq_some_iff.1 ht
  split_ifs at ht
  · rw [← Option.some_inj.1 ht, Record.name_overlay, h n r hr]
  · rw [← Option.some_inj.1 ht, h n r hr]

/-- After some overrides those are gone, and their targets have their members. -/
lemma get?_foldl_overrideStep (h : c.IsNamed) (applied : List Record)
    (ha : ∀ r ∈ applied, r ∈ c.values ∧ r.overrides ≠ none) (n : String) :
    (applied.foldl overrideStep { classes := c }).classes.get? n = c.afterOverrides applied n := by
  induction applied using List.reverseRecOn generalizing n with
  | nil =>
    rw [afterOverrides]
    cases hn : c.get? n <;> simp [Record.overlay, hn]
  | append_singleton applied r ih =>
    have ih := ih fun r' hr' => ha r' (List.mem_append_left _ hr')
    obtain ⟨hr, hover⟩ := ha r (by simp)
    have hname : c.get? r.name = some r := h.get?_name hr
    have hnamed : IsNamed (applied.foldl overrideStep { classes := c }).classes :=
      fun n t ht => afterOverrides_name h (ih n ▸ ht)
    rw [List.foldl_append, List.foldl_cons, List.foldl_nil, overrideStep, OrderedMap.get?_erase,
      get?_applyOverride hnamed, ih, afterOverrides, afterOverrides]
    cases hn : c.get? n with
    | none => simp
    | some t =>
      by_cases ht : t.overrides = none
      · -- a class that overrides nothing is not the one that is removed
        have hne : r.name ≠ n := by
          rintro rfl
          rw [hname, Option.some_inj] at hn
          exact hover (hn ▸ ht)
        by_cases htarget : r.overrides = some n
        · simp [ht, hne, htarget, List.filter_append, Record.overlay_concat]
        · simp [ht, hne, htarget, List.filter_append]
      · by_cases hne : r.name = n
        · simp [ht, hne]
        · have hne' : n ≠ r.name := fun he => hne he.symm
          by_cases hmem : n ∈ applied.map Record.name
          · simp [ht, hne, hmem]
          · simp [ht, hne, hne', hmem]

lemma names_foldl_overrideStep (rs : List Record) (e : Enriched) :
    (rs.foldl overrideStep e).names = e.names ++ rs.map Record.name := by
  induction rs generalizing e with
  | nil => simp
  | cons r rs ih => simp [ih, overrideStep]

/-- The classes that override nothing are left, with the members of their overrides. -/
lemma get?_applyOverrides (h : c.IsNamed) (n : String) :
    (applyOverrides c).classes.get? n = (c.get? n).bind fun t =>
      if t.overrides = none then some (t.overlay n (c.overridesOf n)) else none := by
  have happlied : ∀ r ∈ c.values.filter (·.overrides.isSome), r ∈ c.values ∧ r.overrides ≠ none := by
    simp [Option.isSome_iff_ne_none]
  rw [applyOverrides, get?_foldl_overrideStep h _ happlied, afterOverrides]
  cases hn : c.get? n with
  | none => rfl
  | some t =>
    by_cases ht : t.overrides = none
    · rw [Option.bind_some, Option.bind_some, if_pos ht, if_pos ht, filter_overriding]
    · have hmem : n ∈ (c.values.filter (·.overrides.isSome)).map Record.name := by
        refine List.mem_map.2 ⟨t, List.mem_filter.2 ⟨OrderedMap.mem_values_of_get? hn, ?_⟩, h n t hn⟩
        exact Option.isSome_iff_ne_none.2 ht
      simp [ht, hmem]

end Catalog

end DocGraph
