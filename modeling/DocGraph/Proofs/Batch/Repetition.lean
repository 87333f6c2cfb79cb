import DocGraph.Proofs.Batch.Course
import DocGraph.Proofs.Catalog.Synthesis

/-!
# Repeated passes

For every pass there are catalogs in which it finds nothing to do: nothing is flagged to be ignored, every
property has the accessors that it asks for, every event has its options, every enumeration its type and its
values, and no class overrides another one. A pass leaves such a catalog as it is, and it always gives one,
so it makes no difference whether it is run once or several times in a row.
-/

namespace DocGraph

open Catalog

/-! ### Maps that stay -/

namespace OrderedMap

variable {κ α : Type} [DecidableEq κ] {m : OrderedMap κ α}

lemma map_eq_self {f : κ → α → α} (h : ∀ k v, m.get? k = some v → f k v = v) : m.map f = m := by
  have hsame : ∀ e ∈ m.entries, (e.1, f e.1 e.2) = e := fun e he =>
    Prod.ext rfl (h e.1 e.2 (get?_eq_some_iff.2 he))
  obtain ⟨es, _⟩ := m
  simp only [map, OrderedMap.mk.injEq]
  exact (List.map_congr_left hsame).trans (List.map_id' es)

lemma filter_eq_self {p : κ → α → Bool} (h : ∀ k v, m.get? k = some v → p k v) :
    m.filter p = m := by
  have hall : ∀ e ∈ m.entries, p e.1 e.2 := fun e he => h e.1 e.2 (get?_eq_some_iff.2 he)
  obtain ⟨es, _⟩ := m
  simp only [filter, OrderedMap.mk.injEq]
  exact List.filter_eq_self.2 hall

end OrderedMap

/-! ### Records with nothing to do -/

namespace Record

variable {r : Record} {ms : List (MemberKey × Fragment)}

lemma dropIgnoredMembers_eq_self (h : ∀ key f, r.members.get? key = some f → f.ignored = false) :
    dropIgnoredMembers r = r := by
  rw [dropIgnoredMembers, OrderedMap.filter_eq_self fun key f hf => by simp [h key f hf]]

/-- Members that are there need not be supplied. -/
lemma supplyAll_eq_self (h : ∀ m ∈ ms, m.1 ∈ r.members.keys) : r.supplyAll ms = r := by
  induction ms with
  | nil => rfl
  | cons m ms ih =>
    have hm : r.supply m.1 m.2 = r := by
      rw [supply, if_pos (r.members.contains_iff m.1 |>.2 (h m (List.mem_cons_self ..)))]
    rw [supplyAll, List.foldl_cons, hm]
    exact ih fun m' hm' => h m' (List.mem_cons_of_mem m hm')

lemma supplyAccessors_supplyAccessors (r : Record) :
    supplyAccessors (supplyAccessors r) = supplyAccessors r :=
  supplyAll_eq_self fun _ hm => mem_keys_of_mem_accessors hm

lemma withOptions_withOptions (f : Fragment) : withOptions (withOptions f) = withOptions f := by
  by_cases h : f.subject = .member .event && !f.params.any (·.name = optionsParam.name)
  · have hset : withOptions f = { f with params := f.params ++ [optionsParam] } := if_pos h
    rw [hset, withOptions, if_neg]
    simp
  · have hset : withOptions f = f := if_neg h
    rw [hset, hset]

lemma addOptions_addOptions (r : Record) : addOptions (addOptions r) = addOptions r := by
  simp only [addOptions, OrderedMap.map_map, withOptions_withOptions]

/-- A type that is settled stays. -/
lemma enumType_eq_type {e : EnumSpec} (h : e.type ≠ "") (r : Record) : enumType r e = e.type := by
  simp [enumType, firstNonempty, h]

/-- An enumeration with a type and all of its values is left as it is. -/
lemma expandEnumeration_eq_self (h : r.HasValues) : expandEnumeration r = r := by
  cases he : r.enumeration with
  | none => rw [expandEnumeration, he]
  | some e =>
    obtain ⟨htype, hvalues⟩ := h e he
    have hsame : { r with enumeration := some { e with type := enumType r e } } = r := by
      rw [enumType_eq_type htype, ← he]
    rw [expandEnumeration_eq, valueProperties, he, Option.map_some, hsame, Option.elim_some]
    refine supplyAll_eq_self fun m hm => ?_
    obtain ⟨v, hv, rfl⟩ := List.mem_map.1 hm
    exact hvalues v hv

end Record

/-! ### Passes with nothing to do -/

namespace Catalog

open Record

variable {c : Catalog}

/-- A pass has nothing to do with a catalog: it leaves the catalog as it is, gives no names back and has
nothing to report. -/
def LeavesAlone (pass : Catalog → Enriched) (c : Catalog) : Prop := pass c = { classes := c }

lemma dropIgnored_leavesAlone (h : ∀ n r, c.get? n = some r → r.ignored = false ∧
    ∀ key f, r.members.get? key = some f → f.ignored = false) : LeavesAlone dropIgnored c := by
  have hclasses : c.filter (fun _ r => !r.ignored) = c :=
    OrderedMap.filter_eq_self fun n r hr => by simp [(h n r hr).1]
  have hnames : ignoredNames c = [] := by
    have hnone : c.entries.filter (·.2.ignored) = [] := by
      refine List.filter_eq_nil_iff.2 fun e he => ?_
      simp [(h e.1 e.2 (OrderedMap.get?_eq_some_iff.2 he)).1]
    rw [ignoredNames, hnone]
    exact List.mergeSort_nil
  rw [LeavesAlone, dropIgnored, hclasses, hnames,
    OrderedMap.map_eq_self fun n r hr => dropIgnoredMembers_eq_self (h n r hr).2]
  rfl

lemma applyOverrides_leavesAlone (h : ∀ n r, c.get? n = some r → r.overrides = none) :
    LeavesAlone applyOverrides c := by
  have hnone : c.values.filter (·.overrides.isSome) = [] := by
    refine List.filter_eq_nil_iff.2 fun r hr => ?_
    obtain ⟨e, he, rfl⟩ := List.mem_map.1 hr
    simp [h e.1 e.2 (OrderedMap.get?_eq_some_iff.2 he)]
  rw [LeavesAlone, applyOverrides, hnone]
  rfl

/-- A pass that does the same to every record has nothing to do if it has nothing to do with any of them. -/
lemma map_leavesAlone {f : Record → Record} (h : ∀ n r, c.get? n = some r → f r = r) :
    LeavesAlone (fun c => { classes := c.map fun _ r => f r }) c := by
  rw [LeavesAlone, OrderedMap.map_eq_self h]

/-! ### Second runs -/

lemma dropIgnored_again (c : Catalog) : LeavesAlone dropIgnored (dropIgnored c).classes := by
  refine dropIgnored_leavesAlone fun n r' hr' => ?_
  rw [get?_dropIgnored, Option.map_eq_some_iff] at hr'
  obtain ⟨r, hr, rfl⟩ := hr'
  constructor
  · simpa [dropIgnoredMembers] using (Option.filter_eq_some_iff.1 hr).2
  · intro key f hf
    rw [get?_dropIgnoredMembers, Option.filter_eq_some_iff] at hf
    simpa using hf.2

lemma addAccessors_again (c : Catalog) : LeavesAlone addAccessors (addAccessors c).classes := by
  refine map_leavesAlone fun n r' hr' => ?_
  rw [addAccessors, OrderedMap.get?_map, Option.map_eq_some_iff] at hr'
  obtain ⟨r, -, rfl⟩ := hr'
  exact supplyAccessors_supplyAccessors r

lemma expandEnumerations_again (c : Catalog) :
    LeavesAlone expandEnumerations (expandEnumerations c).classes := by
  refine map_leavesAlone fun n r' hr' => ?_
  rw [expandEnumerations, OrderedMap.get?_map, Option.map_eq_some_iff] at hr'
  obtain ⟨r, -, rfl⟩ := hr'
  exact expandEnumeration_eq_self r.hasValues_expandEnumeration

lemma applyOverrides_again (h : c.IsNamed) :
    LeavesAlone applyOverrides (applyOverrides c).classes := by
  refine applyOverrides_leavesAlone fun n r hr => ?_
  rw [get?_applyOverrides h, Option.bind_eq_some_iff] at hr
  obtain ⟨t, -, hr⟩ := hr
  split at hr
  · next hover => rw [← Option.some_inj.1 hr, overrides_overlay, hover]
  · simp at hr

/-- With settings that are a mapping, or none at all, the rules can be applied. -/
lemma exists_applyRules {settings : Value} {ps : List (Scalar × Value)}
    (hs : settings.orEmpty.pairs? = .ok ps) (c : Catalog) :
    ∃ e, applyRules c FrameworkRule.standard settings = .ok e := by
  simp [applyRules, FrameworkRule.standard, hs]

/-- The rules look only at the names of classes and at their setting, so they apply again, and then find all
events with their options. -/
lemma applyRules_again {settings : Value} {e e' : Enriched}
    (he : applyRules c FrameworkRule.standard settings = .ok e)
    (he' : applyRules e.classes FrameworkRule.standard settings = .ok e') :
    e'.classes = e.classes := by
  obtain ⟨options, hoptions, hclasses⟩ := applyRules_standard he
  obtain ⟨options', hoptions', hclasses'⟩ := applyRules_standard he'
  cases options with
  | false =>
    rw [hclasses, if_neg Bool.false_ne_true] at hclasses' hoptions' ⊢
    rw [hoptions, Except.ok.injEq] at hoptions'
    rw [hclasses', ← hoptions', if_neg Bool.false_ne_true]
  | true =>
    rw [hclasses, if_pos rfl] at hclasses' hoptions' ⊢
    rw [asksOptions_map, hoptions, Except.ok.injEq] at hoptions'
    rw [hclasses', ← hoptions', if_pos rfl, OrderedMap.map_map]
    simp only [addOptions_addOptions]

/-- A pass that is run again right after itself changes nothing and reports nothing. -/
theorem passes_again_change_nothing (h : c.IsNamed) {settings : Value} {ps : List (Scalar × Value)}
    (hs : settings.orEmpty.pairs? = .ok ps) :
    LeavesAlone dropIgnored (dropIgnored c).classes ∧
    LeavesAlone addAccessors (addAccessors c).classes ∧
    (∃ e e', applyRules c FrameworkRule.standard settings = .ok e ∧
      applyRules e.classes FrameworkRule.standard settings = .ok e' ∧
      e'.classes = e.classes ∧ e'.journal.diagnostics = []) ∧
    LeavesAlone expandEnumerations (expandEnumerations c).classes ∧
    LeavesAlone applyOverrides (applyOverrides c).classes := by
  obtain ⟨e, he⟩ := exists_applyRules hs c
  obtain ⟨e', he'⟩ := exists_applyRules hs e.classes
  exact ⟨dropIgnored_again c, addAccessors_again c,
    ⟨e, e', he, he', applyRules_again he he', diagnostics_applyRules he'⟩,
    expandEnumerations_again c, applyOverrides_again h⟩

/-- A window and a patch for it, a draft that is ignored, and an enumeration without a type: every pass has
something to do. -/
def unprepared : Catalog := .ofList <|
  [{ name := "Draft", ignored := true },
    { name := "Window"
      members := .ofList [
        (⟨.cfg, "title"⟩, { subject := .member .cfg, name := "title", accessor := true }),
        (⟨.method, "probe"⟩, { subject := .member .method, name := "probe", ignored := true }),
        (⟨.event, "show"⟩, { subject := .member .event, name := "show" })] },
    { name := "Patch", overrides := some "Window"
      members := .ofList [(⟨.event, "hide"⟩, { subject := .member .event, name := "hide" })] },
    { name := "Side", enumeration := some { values := [{ name := "left" }] } }
    ].map fun r => (r.name, r)

/-- The keys of all members by class. -/
def memberKeys (c : Catalog) : List (String × List MemberKey) :=
  c.entries.map fun e => (e.1, e.2.members.keys)

theorem passes_again_change_nothing_unprepared :
    let settings := Value.record [("ext4_events", .bool true)]
    unprepared.IsNamed ∧ settings.orEmpty.pairs? = .ok [(.text "ext4_events", .bool true)] ∧
    memberKeys (dropIgnored unprepared).classes =
      [("Window", [⟨.cfg, "title"⟩, ⟨.event, "show"⟩]), ("Patch", [⟨.event, "hide"⟩]), ("Side", [])] ∧
    LeavesAlone dropIgnored (dropIgnored unprepared).classes ∧
    ((addAccessors unprepared).classes.get? "Window").map (·.members.keys) =
      some [⟨.cfg, "title"⟩, ⟨.method, "probe"⟩, ⟨.event, "show"⟩, ⟨.method, "getTitle"⟩,
        ⟨.method, "setTitle"⟩] ∧
    LeavesAlone addAccessors (addAccessors unprepared).classes ∧
    (∃ e e', applyRules unprepared FrameworkRule.standard settings = .ok e ∧
      member? e.classes ⟨"Window", ⟨.event, "show"⟩⟩ =
        some { subject := .member .event, name := "show", params := [optionsParam] } ∧
      applyRules e.classes FrameworkRule.standard settings = .ok e' ∧
      e'.classes = e.classes ∧ e'.journal.diagnostics = []) ∧
    ((expandEnumerations unprepared).classes.get? "Side").map (·.members.keys) =
      some [⟨.property, "left"⟩] ∧
    LeavesAlone expandEnumerations (expandEnumerations unprepared).classes ∧
    memberKeys (applyOverrides unprepared).classes =
      [("Draft", []), ("Window", [⟨.cfg, "title"⟩, ⟨.method, "probe"⟩, ⟨.event, "show"⟩,
        ⟨.event, "hide"⟩]), ("Side", [])] ∧
    LeavesAlone applyOverrides (applyOverrides unprepared).classes := by
  intro settings
  have hnamed : unprepared.IsNamed := by
    have hall : ∀ e ∈ unprepared.entries, e.2.name = e.1 := by decide
    exact fun n r hr => hall (n, r) (OrderedMap.get?_eq_some_iff.1 hr)
  have hs : settings.orEmpty.pairs? = .ok [(.text "ext4_events", .bool true)] := rfl
  obtain ⟨hignored, haccessors, ⟨e, e', he, he', hsame, hquiet⟩, hvalues, hover⟩ :=
    passes_again_change_nothing hnamed hs
  have hshow : ((applyRules unprepared FrameworkRule.standard settings).toOption.bind
      (member? ·.classes ⟨"Window", ⟨.event, "show"⟩⟩)) =
        some { subject := .member .event, name := "show", params := [optionsParam] } := by
    decide +kernel
  rw [he] at hshow
  exact ⟨hnamed, hs, by decide +kernel, hignored, by decide +kernel, haccessors,
    ⟨e, e', he, hshow, he', hsame, hquiet⟩, by decide +kernel, hvalues, by decide +kernel, hover⟩

end Catalog

end DocGraph
