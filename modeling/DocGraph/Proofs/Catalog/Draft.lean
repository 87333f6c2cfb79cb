import DocGraph.Catalog.Ignored
import DocGraph.Proofs.Catalog.Aggregation
import DocGraph.Proofs.Catalog.Overriding

/-!
# Drafts

What the passes over a catalog start from is a draft: all that was gathered from files, and what the
settings say about it. The members that are written come first, without the ignored ones; then every
record gets what is made for it, and only after that overrides are applied. So a member of a finished
record may be one that was made for an override.
-/

namespace DocGraph

/-- What was gathered from files, and what the settings say about it. -/
structure Draft where
  gathered : Aggregation
  /-- Members without a class are unwanted. -/
  unwanted : Bool
  /-- Listeners of events have options. -/
  options : Bool

namespace Draft

open Catalog

/-- The catalog of what is written and not ignored. -/
def written (d : Draft) : Catalog :=
  (hoistGlobals (dropIgnored d.gathered.classes).classes d.gathered.orphans d.unwanted).classes

/-- The catalog with all that is made for it, with listener options or without, and with all overrides
applied. -/
def catalog (d : Draft) (options : Bool) : Catalog :=
  (applyOverrides (d.written.map fun _ r => r.enrich options)).classes

end Draft

/-! ### Written members -/

namespace Catalog

variable {c : Catalog} {r : Record} {n : String} {key : MemberKey} {f : Fragment}

lemma get?_dropIgnored (c : Catalog) (n : String) :
    (dropIgnored c).classes.get? n =
      ((c.get? n).filter fun r => !r.ignored).map dropIgnoredMembers := by
  rw [dropIgnored, OrderedMap.get?_map, OrderedMap.get?_filter]

lemma get?_dropIgnoredMembers (r : Record) (key : MemberKey) :
    (dropIgnoredMembers r).members.get? key = (r.members.get? key).filter fun f => !f.ignored :=
  OrderedMap.get?_filter ..

lemma IsNamed.dropIgnored (h : c.IsNamed) : (dropIgnored c).classes.IsNamed := by
  refine IsNamed.map (fun n r hr => ?_) _ fun _ => rfl
  rw [OrderedMap.get?_filter, Option.filter_eq_some_iff] at hr
  exact h n r hr.1

/-- Global members come to a record at their class, if they come at all. -/
lemma hoistGlobals_classes (c : Catalog) (orphans : List Fragment) (unwanted : Bool) :
    (hoistGlobals c orphans unwanted).classes = c ∨
      (hoistGlobals c orphans unwanted).classes = c.insert globalName
        (((c.get? globalName).getD globalRecord).absorb globalName (globalMembers orphans)) := by
  rw [hoistGlobals]
  split
  · exact .inl rfl
  · exact .inr (congrArg (c.insert globalName) (fst_foldl_defineIn globalName _ (_, [])))

lemma name_globals (h : c.IsNamed) : ((c.get? globalName).getD globalRecord).name = globalName := by
  cases hg : c.get? globalName with
  | none => rfl
  | some r => exact h globalName r hg

lemma IsNamed.hoistGlobals (h : c.IsNamed) (orphans : List Fragment) (unwanted : Bool) :
    (hoistGlobals c orphans unwanted).classes.IsNamed := by
  rcases hoistGlobals_classes c orphans unwanted with hc | hc <;> rw [hc]
  · exact h
  · simpa [name_globals h] using
      h.insert (((c.get? globalName).getD globalRecord).absorb globalName (globalMembers orphans))

end Catalog

namespace Fragment

/-- A member of a class is one of some fragments that is not ignored, and is now owned by the class. -/
def IsWritten (fs : List Fragment) (cls : String) (key : MemberKey) (f : Fragment) : Prop :=
  ∃ w ∈ fs, w.key? = some key ∧ w.ignored = false ∧ f = w.ownedBy cls

end Fragment

namespace Draft

open Catalog Fragment

variable {fs : List Fragment} {d : Draft} {r : Record} {n : String} {key : MemberKey} {f : Fragment}

lemma isNamed_gathered {a : Aggregation} (h : a.Gathers fs) : a.classes.IsNamed := by
  intro n r hr
  simpa [record, hr] using h.name n

lemma isNamed_written (h : d.gathered.Gathers fs) : d.written.IsNamed :=
  (isNamed_gathered h).dropIgnored.hoistGlobals _ _

lemma isWritten_of_dropIgnored {a : Aggregation} (h : a.Gathers fs)
    (hr : (dropIgnored a.classes).classes.get? n = some r) (hf : r.members.get? key = some f) :
    IsWritten fs n key f := by
  rw [get?_dropIgnored, Option.map_eq_some_iff] at hr
  obtain ⟨r, hr, rfl⟩ := hr
  rw [Option.filter_eq_some_iff] at hr
  rw [get?_dropIgnoredMembers, Option.filter_eq_some_iff] at hf
  have hmem : f ∈ definitions fs n key := h.mem_definitions (by rw [record, hr.1]; exact hf.1)
  obtain ⟨hfs, hof⟩ := List.mem_filter.1 hmem
  obtain ⟨ho, hk⟩ := of_decide_eq_true hof
  exact ⟨f, hfs, hk, by simpa using hf.2, by rw [ownedBy, ← (class?_eq_some_iff.1 ho).1]⟩

lemma isWritten_of_mem_globalMembers {a : Aggregation} (h : a.Gathers fs)
    {m : MemberKey × Fragment} (hm : m ∈ globalMembers a.orphans) (cls : String) :
    IsWritten fs cls m.1 (m.2.ownedBy cls) := by
  rw [globalMembers, h.orphans] at hm
  obtain ⟨w, hw, hk⟩ := List.mem_filterMap.1 hm
  obtain ⟨hw, hi⟩ := List.mem_filter.1 hw
  obtain ⟨key, hkey, rfl⟩ := Option.map_eq_some_iff.1 hk
  exact ⟨w, (List.mem_filter.1 hw).1, hkey, by simpa using hi, rfl⟩

/-- All members of the first catalog are written. -/
lemma isWritten_of_written (h : d.gathered.Gathers fs) (hr : d.written.get? n = some r)
    (hf : r.members.get? key = some f) : IsWritten fs n key f := by
  rw [written] at hr
  rcases hoistGlobals_classes (dropIgnored d.gathered.classes).classes d.gathered.orphans d.unwanted
    with hc | hc <;> rw [hc] at hr
  · exact isWritten_of_dropIgnored h hr hf
  · rw [OrderedMap.get?_insert] at hr
    split at hr
    · next hn =>
      subst hn
      rw [← Option.some_inj.1 hr, Record.get?_absorb, Option.or_eq_some_iff] at hf
      rcases hf with hf | ⟨-, hf⟩
      · obtain ⟨m, hm, rfl⟩ := Option.map_eq_some_iff.1 hf
        have hkey : m.1 = key := by simpa using List.find?_some hm
        exact hkey ▸ isWritten_of_mem_globalMembers h
          (List.mem_reverse.1 (List.mem_of_find?_eq_some hm)) _
      · cases hg : (dropIgnored d.gathered.classes).classes.get? globalName with
        | none => simp [hg, globalRecord] at hf
        | some r => exact isWritten_of_dropIgnored h hg (by simpa [hg] using hf)
    · exact isWritten_of_dropIgnored h hr hf

/-- A class that is not ignored is written with some more definitions, if it is that of global members. -/
lemma exists_written_eq_absorb (hr : d.gathered.classes.get? n = some r) (hi : r.ignored = false) :
    ∃ ms, d.written.get? n = some ((dropIgnoredMembers r).absorb n ms) := by
  have hdropped : (dropIgnored d.gathered.classes).classes.get? n = some (dropIgnoredMembers r) := by
    simp [get?_dropIgnored, hr, hi]
  rw [written]
  rcases hoistGlobals_classes (dropIgnored d.gathered.classes).classes d.gathered.orphans d.unwanted
    with hc | hc <;> rw [hc]
  · exact ⟨[], hdropped⟩
  · rw [OrderedMap.get?_insert]
    split
    · next hn =>
      subst hn
      rw [hdropped]
      exact ⟨_, rfl⟩
    · exact ⟨[], hdropped⟩

/-- A member that is not ignored, of a class that is not ignored, is in the first catalog, or another
definition of it is. -/
lemma exists_written {o : Record} {w : Fragment} (hr : d.gathered.classes.get? n = some o)
    (hi : o.ignored = false) (hw : o.members.get? key = some w) (hwi : w.ignored = false) :
    ∃ r, d.written.get? n = some r ∧ r.overrides = o.overrides ∧ key ∈ r.members.keys := by
  have hkept : (dropIgnoredMembers o).members.get? key = some w := by
    simp [get?_dropIgnoredMembers, hw, hwi]
  obtain ⟨ms, ht⟩ := exists_written_eq_absorb hr hi
  refine ⟨_, ht, Record.overrides_absorb .., (OrderedMap.get?_isSome_iff _ _).1 ?_⟩
  simp [Record.get?_absorb, hkept]

end Draft

/-! ### Finished members -/

namespace Record

variable {r : Record} {rs : List Record} {key : MemberKey} {f : Fragment}

/-- A record has a member or asks for one. -/
def Gives (r : Record) (key : MemberKey) : Prop := key ∈ r.members.keys ∨ key ∈ r.asked

instance (r : Record) (key : MemberKey) : Decidable (r.Gives key) :=
  inferInstanceAs (Decidable (_ ∨ _))

lemma isSome_get?_enrich (options : Bool) (r : Record) (key : MemberKey) :
    ((r.enrich options).members.get? key).isSome ↔ r.Gives key := by
  rw [get?_enrich, Option.isSome_or, Bool.or_eq_true, Option.isSome_map, Option.isSome_map, Gives,
    OrderedMap.get?_isSome_iff, ← map_fst_made options, List.find?_isSome]
  simp

/-- The last of some records that has a member or asks for it. -/
def lastGiver (rs : List Record) (key : MemberKey) : Option Record := rs.reverse.find? (·.Gives key)

lemma lastGiver_eq_some {o : Record} (h : lastGiver rs key = some o) : o ∈ rs ∧ o.Gives key :=
  ⟨List.mem_reverse.1 (List.mem_of_find?_eq_some h), by simpa using List.find?_some h⟩

lemma not_gives_of_lastGiver_eq_none (h : lastGiver rs key = none) (hr : r ∈ rs) : ¬r.Gives key := by
  simpa using List.find?_eq_none.1 h r (List.mem_reverse.2 hr)

/-- A member that all overrides together have is that of the last one that has it or asks for it. -/
lemma get?_overlay_enrich (options : Bool) (cls : String) (os : List Record) (t : Record)
    (key : MemberKey) :
    (t.overlay cls (os.map (enrich options))).members.get? key =
      ((lastGiver os key).bind fun o =>
        ((o.enrich options).members.get? key).map (·.ownedBy cls)).or (t.members.get? key) := by
  rw [get?_overlay, ← List.map_reverse, List.findSome?_map, lastGiver]
  congr 1
  induction os.reverse with
  | nil => rfl
  | cons o os ih =>
    by_cases h : o.Gives key
    · obtain ⟨f, hf⟩ := Option.isSome_iff_exists.1 ((isSome_get?_enrich options o key).2 h)
      simp [h, hf]
    · have hnone : (o.enrich options).members.get? key = none := by
        rwa [← Option.not_isSome_iff_eq_none, isSome_get?_enrich]
      simpa [h, hnone] using ih

end Record

namespace Catalog

lemma overridesOf_map (c : Catalog) (f : Record → Record) (hf : ∀ r, (f r).overrides = r.overrides)
    (n : String) : overridesOf (c.map fun _ r => f r) n = (c.overridesOf n).map f := by
  simp [overridesOf, OrderedMap.values, OrderedMap.map, List.filter_map, Function.comp_def, hf]

end Catalog

namespace Draft

open Catalog Record

variable {d : Draft} {r : Record} {n : String}

/-- A finished record is one that overrides nothing, with what is made for it and for its overrides. -/
lemma get?_catalog (h : d.written.IsNamed) (options : Bool) (n : String) :
    (d.catalog options).get? n = (d.written.get? n).bind fun t =>
      if t.overrides = none then
        some ((t.enrich options).overlay n ((d.written.overridesOf n).map (enrich options)))
      else none := by
  rw [catalog, get?_applyOverrides (h.map _ (name_enrich options)),
    overridesOf_map _ _ (overrides_enrich options), OrderedMap.get?_map]
  cases d.written.get? n <;> simp

/-- A member of a finished record is that of the last override that has it or asks for it, or else that
of the record itself. -/
lemma get?_of_catalog (h : d.written.IsNamed) {options : Bool}
    (hr : (d.catalog options).get? n = some r) :
    ∃ t, d.written.get? n = some t ∧ t.overrides = none ∧ r.name = n ∧
      ∀ key, r.members.get? key = ((lastGiver (d.written.overridesOf n) key).bind fun o =>
        ((o.enrich options).members.get? key).map (·.ownedBy n)).or
          ((t.enrich options).members.get? key) := by
  rw [get?_catalog h, Option.bind_eq_some_iff] at hr
  obtain ⟨t, ht, hr⟩ := hr
  split at hr
  · next hover =>
    rw [← Option.some_inj.1 hr]
    exact ⟨t, ht, hover, by simp [h n t ht], get?_overlay_enrich options n _ _⟩
  · simp at hr

lemma isNamed_catalog (h : d.written.IsNamed) (options : Bool) : (d.catalog options).IsNamed := by
  intro n r hr
  obtain ⟨_, -, -, hname, -⟩ := get?_of_catalog h hr
  exact hname

end Draft

end DocGraph
