import DocGraph.Proofs.Batch.Exclusion
import DocGraph.Proofs.Graph.Flaws

/-!
# Removed classes

A class that is ignored, or that overrides another one, is removed, and its name is external from then on.
So a reference by this name does not come to be unresolved. Nothing is said of the alternate names of the
class: a reference by one of these comes to be unresolved, unless a class that is kept has the name as well.
-/

namespace DocGraph

open Catalog

/-! ### Records -/

namespace Record

variable {r : Record}

/-- The names to and from the class of a record. -/
def links (r : Record) : Links := ⟨r.parent, r.mixins, r.alternateNames⟩

@[simp] lemma links_absorb (cls : String) (r : Record) (ms : List (MemberKey × Fragment)) :
    (r.absorb cls ms).links = r.links := by
  induction ms generalizing r with
  | nil => rfl
  | cons m ms ih => exact ih (r.define m.1 (m.2.ownedBy cls))

@[simp] lemma links_overlay (cls : String) (os : List Record) (t : Record) :
    (t.overlay cls os).links = t.links := by
  induction os using List.reverseRecOn with
  | nil => rfl
  | append_singleton os o ih => rw [overlay_concat, links_absorb, ih]

@[simp] lemma links_enrich (options : Bool) (r : Record) : (r.enrich options).links = r.links := by
  obtain ⟨_, _, h⟩ := enrich_eq options r
  rw [h]
  rfl

/-- A class that is ignored or that overrides another one is to be removed. -/
def IsRemoved (r : Record) : Prop := r.ignored = true ∨ r.overrides ≠ none

end Record

/-! ### Catalogs -/

namespace Catalog

variable {c : Catalog} {r : Record} {n : String}

/-- All overrides are removed, those without a target too. -/
lemma mem_names_applyOverrides (h : c.IsNamed) :
    n ∈ (applyOverrides c).names ↔ ∃ r, c.get? n = some r ∧ r.overrides ≠ none := by
  rw [applyOverrides, names_foldl_overrideStep, List.nil_append, List.mem_map]
  constructor
  · rintro ⟨r, hr, rfl⟩
    obtain ⟨hr, hover⟩ := List.mem_filter.1 hr
    exact ⟨r, h.get?_name hr, Option.isSome_iff_ne_none.1 hover⟩
  · rintro ⟨r, hr, hover⟩
    refine ⟨r, List.mem_filter.2 ⟨OrderedMap.mem_values_of_get? hr, ?_⟩, h n r hr⟩
    exact Option.isSome_iff_ne_none.2 hover

end Catalog

namespace Draft

variable {d : Draft} {r t : Record} {n : String}

/-- A class that is not ignored is written with its names, and with what it overrides. -/
lemma exists_written_of_get? (hr : d.gathered.classes.get? n = some r) (hi : r.ignored = false) :
    ∃ t, d.written.get? n = some t ∧ t.links = r.links ∧ t.overrides = r.overrides := by
  obtain ⟨ms, ht⟩ := exists_written_eq_absorb hr hi
  exact ⟨_, ht, Record.links_absorb .., Record.overrides_absorb ..⟩

/-- A class that is written is one that was gathered and is not ignored, or it has no names but its own. -/
lemma get?_of_written (ht : d.written.get? n = some t) :
    (t.links = {} ∧ t.overrides = none) ∨
      ∃ r, d.gathered.classes.get? n = some r ∧ r.ignored = false ∧ t.links = r.links ∧
        t.overrides = r.overrides := by
  cases hdropped : (dropIgnored d.gathered.classes).classes.get? n with
  | none =>
    rw [written, get?_hoistGlobals_of_none hdropped] at ht
    split at ht
    · rw [← Option.some_inj.1 ht, Record.links_absorb, Record.overrides_absorb]
      exact .inl ⟨rfl, rfl⟩
    · cases ht
  | some r' =>
    rw [get?_dropIgnored, Option.map_eq_some_iff] at hdropped
    obtain ⟨r, hr, -⟩ := hdropped
    obtain ⟨hr, hi⟩ := Option.filter_eq_some_iff.1 hr
    have hi : r.ignored = false := by simpa using hi
    obtain ⟨t', ht', hlinks, hover⟩ := exists_written_of_get? hr hi
    rw [ht, Option.some_inj] at ht'
    subst ht'
    exact .inr ⟨r, hr, hi, hlinks, hover⟩

end Draft

/-! ### Graphs -/

namespace ClassGraph

/-- One graph is what is left of another one when some classes are removed and their names are external
from then on. What is added to it has no names but its own. -/
structure IsLeftOf (g₀ : ClassGraph) (removed : List String) (g : ClassGraph) : Prop where
  registered : ∀ n, n ∈ g.registered ↔ n ∈ g₀.registered ∨ n ∈ removed
  removed_mem : ∀ n ∈ removed, n ∈ g₀.names
  kept : ∀ c₀ ∈ g₀.classes, c₀.name ∉ removed → ∃ c ∈ g.classes, c.name = c₀.name ∧ c.links = c₀.links
  origin : ∀ c ∈ g.classes, c.links = {} ∨
    ∃ c₀ ∈ g₀.classes, c₀.name = c.name ∧ c₀.name ∉ removed ∧ c₀.links = c.links

/-- A name has been an alternate one, and only of classes that are removed. -/
def LosesAlternate (g₀ : ClassGraph) (removed : List String) (n : String) : Prop :=
  n ∉ g₀.names ∧ n ∉ g₀.registered ∧ (∃ c ∈ g₀.classes, n ∈ c.alternateNames) ∧
    ∀ c ∈ g₀.classes, n ∈ c.alternateNames → c.name ∈ removed

namespace IsLeftOf

variable {g₀ g : ClassGraph} {removed : List String} {n : String}

lemma mem_names (h : g₀.IsLeftOf removed g) (hn : n ∈ g₀.names) : n ∈ removed ∨ n ∈ g.names := by
  obtain ⟨c₀, hc₀, rfl⟩ := List.mem_map.1 hn
  rw [or_iff_not_imp_left]
  intro hkept
  obtain ⟨c, hc, hname, -⟩ := h.kept c₀ hc₀ hkept
  exact hname ▸ List.mem_map_of_mem hc

lemma exists_alternate_iff (h : g₀.IsLeftOf removed g) :
    (∃ c ∈ g.classes, n ∈ c.alternateNames) ↔
      ∃ c ∈ g₀.classes, n ∈ c.alternateNames ∧ c.name ∉ removed := by
  constructor
  · rintro ⟨c, hc, hn⟩
    change n ∈ c.links.alternateNames at hn
    rcases h.origin c hc with hlinks | ⟨c₀, hc₀, -, hkept, hlinks⟩
    · simp [hlinks] at hn
    · rw [← hlinks] at hn
      exact ⟨c₀, hc₀, hn, hkept⟩
  · rintro ⟨c₀, hc₀, hn, hkept⟩
    obtain ⟨c, hc, -, hlinks⟩ := h.kept c₀ hc₀ hkept
    change n ∈ c₀.links.alternateNames at hn
    rw [← hlinks] at hn
    exact ⟨c, hc, hn⟩

lemma exists_reference (h : g₀.IsLeftOf removed g) (hn : ∃ c ∈ g.classes, n ∈ c.references) :
    ∃ c ∈ g₀.classes, n ∈ c.references := by
  obtain ⟨c, hc, hn⟩ := hn
  change n ∈ c.links.parent.toList ++ c.links.mixins at hn
  rcases h.origin c hc with hlinks | ⟨c₀, hc₀, -, -, hlinks⟩
  · simp [hlinks] at hn
  · rw [← hlinks] at hn
    exact ⟨c₀, hc₀, hn⟩

/-- A reference that is left and leads to no class is unresolved if it was so before, or if the name was an
alternate one of removed classes. -/
lemma mem_unresolved_iff (h : g₀.IsLeftOf removed g) :
    n ∈ g.unresolved ↔ (∃ c ∈ g.classes, n ∈ c.references) ∧ n ∉ g.names ∧
      (n ∈ g₀.unresolved ∨ g₀.LosesAlternate removed n) := by
  rw [mem_unresolved, find?_eq_none_iff, h.registered, h.exists_alternate_iff, LosesAlternate,
    mem_unresolved, find?_eq_none_iff]
  constructor
  · rintro ⟨hreference, ⟨hn, halternate⟩, hexternal⟩
    rw [not_or] at hexternal
    have hn₀ : n ∉ g₀.names := fun hn₀ => (h.mem_names hn₀).elim hexternal.2 hn
    refine ⟨hreference, hn, ?_⟩
    by_cases halternate₀ : ∃ c ∈ g₀.classes, n ∈ c.alternateNames
    · refine .inr ⟨hn₀, hexternal.1, halternate₀, fun c hc hnc => ?_⟩
      by_contra hkept
      exact halternate ⟨c, hc, hnc, hkept⟩
    · exact .inl ⟨h.exists_reference hreference, ⟨hn₀, halternate₀⟩, hexternal.1⟩
  · -- in both cases the name is new to the classes that are kept and to the external ones
    rintro ⟨hreference, hn, hcase⟩
    have hn₀ : n ∉ g₀.names := hcase.elim (·.2.1.1) (·.1)
    have hexternal : n ∉ g₀.registered := hcase.elim (·.2.2) (·.2.1)
    have hkept : n ∉ removed := fun hmem => hn₀ (h.removed_mem n hmem)
    refine ⟨hreference, ⟨hn, ?_⟩, not_or.2 ⟨hexternal, hkept⟩⟩
    rintro ⟨c, hc, hnc, hkept⟩
    rcases hcase with ⟨-, ⟨-, hnone⟩, -⟩ | ⟨-, -, -, hremoved⟩
    · exact hnone ⟨c, hc, hnc⟩
    · exact hkept (hremoved c hc hnc)

end IsLeftOf

end ClassGraph

/-! ### Prepared catalogs -/

namespace Batch

variable {s : Settings} {a : Aggregation} {fs : List Fragment} {j j' : Journal} {p : Prepared}
  {n : String} {r : Record} {external : List Scalar} {g g₀ : ClassGraph}

lemma mem_removed_prepare (ha : a.Gathers fs) (h : (prepare s a).Yields j p j') :
    n ∈ p.removed ↔ ∃ r, a.classes.get? n = some r ∧ r.IsRemoved := by
  obtain ⟨d, -, rfl, _, _, rfl, rfl, rfl, -⟩ := prepare_passes h
  change n ∈ _ ++ (applyOverrides (d.written.map fun _ r => r.enrich d.options)).names ↔ _
  have hnamed := (Draft.isNamed_written ha).map _ (Record.name_enrich d.options)
  rw [List.mem_append, mem_names_dropIgnored, mem_names_applyOverrides hnamed]
  simp only [OrderedMap.get?_map, Option.map_eq_some_iff]
  constructor
  · rintro (⟨r, hr, hi⟩ | ⟨_, ⟨t, ht, rfl⟩, hover⟩)
    · exact ⟨r, hr, .inl hi⟩
    · rw [Record.overrides_enrich] at hover
      rcases Draft.get?_of_written ht with ⟨-, hnone⟩ | ⟨r, hr, -, -, hover'⟩
      · exact absurd hnone hover
      · exact ⟨r, hr, .inr (hover' ▸ hover)⟩
  · rintro ⟨r, hr, hremoved⟩
    cases hi : r.ignored with
    | true => exact .inl ⟨r, hr, hi⟩
    | false =>
      have hover := hremoved.resolve_left (by simp [hi])
      obtain ⟨t, ht, -, hover'⟩ := Draft.exists_written_of_get? hr hi
      exact .inr ⟨_, ⟨t, ht, rfl⟩, by rwa [Record.overrides_enrich, hover']⟩

/-- A class that is not removed is prepared with its names. -/
lemma exists_prepared_of_get? (ha : a.Gathers fs) (h : (prepare s a).Yields j p j')
    (hr : a.classes.get? n = some r) (hn : n ∉ p.removed) :
    ∃ r', p.classes.get? n = some r' ∧ r'.links = r.links := by
  rw [mem_removed_prepare ha h] at hn
  have hkept : ¬r.IsRemoved := fun hremoved => hn ⟨r, hr, hremoved⟩
  simp only [Record.IsRemoved, not_or, Bool.not_eq_true, not_not] at hkept
  obtain ⟨d, -, rfl, hclasses⟩ := prepare_yields h
  obtain ⟨t, ht, hlinks, hover⟩ := Draft.exists_written_of_get? hr hkept.1
  rw [hclasses, Draft.get?_catalog (Draft.isNamed_written ha), ht, Option.bind_some, hover,
    if_pos hkept.2]
  exact ⟨_, rfl, by rw [Record.links_overlay, Record.links_enrich, hlinks]⟩

/-- A class that is prepared is one that was not removed, or it has no names but its own. -/
lemma get?_of_prepare (ha : a.Gathers fs) (h : (prepare s a).Yields j p j')
    (hr : p.classes.get? n = some r) :
    r.links = {} ∨
      ∃ r₀, a.classes.get? n = some r₀ ∧ n ∉ p.removed ∧ r₀.links = r.links := by
  have hremoved := fun {n} => mem_removed_prepare (n := n) ha h
  obtain ⟨d, -, rfl, hclasses⟩ := prepare_yields h
  rw [hclasses, Draft.get?_catalog (Draft.isNamed_written ha), Option.bind_eq_some_iff] at hr
  obtain ⟨t, ht, hr⟩ := hr
  split at hr
  · next hover =>
    rw [← Option.some_inj.1 hr, Record.links_overlay, Record.links_enrich]
    rcases Draft.get?_of_written ht with ⟨hlinks, -⟩ | ⟨r₀, hr₀, hi, hlinks, hover'⟩
    · exact .inl hlinks
    · refine .inr ⟨r₀, hr₀, ?_, hlinks.symm⟩
      rw [hremoved, hr₀]
      rintro ⟨_, ⟨⟩, hi' | hover''⟩
      · simp [hi] at hi'
      · exact hover'' (hover' ▸ hover)
  · cases hr

/-! ### Built graphs -/

lemma mem_classes_iff_of_graphOf {c : Catalog} {names : List Scalar} {cls : DocClass} (hn : c.IsNamed)
    (hg : graphOf c names = .ok g) :
    cls ∈ g.classes ↔ ∃ r, c.get? r.name = some r ∧ DocClass.ofRecord r = cls := by
  rw [classes_of_graphOf hg, List.mem_map]
  constructor
  · rintro ⟨r, hr, rfl⟩
    exact ⟨r, hn.get?_name hr, rfl⟩
  · rintro ⟨r, hr, rfl⟩
    exact ⟨r, OrderedMap.mem_values_of_get? hr, rfl⟩

/-- The graph of a prepared catalog is what is left of the graph of what was gathered. -/
lemma isLeftOf_build {k k' l l' : Journal} (ha : a.Gathers fs) (h : (prepare s a).Yields j p j')
    (hg₀ : (build external ⟨a.classes, []⟩).Yields k g₀ k') (hg : (build external p).Yields l g l') :
    g₀.IsLeftOf p.removed g := by
  have hregistered₀ := fun {n} => mem_registered_of_build (n := n) hg₀
  have hregistered := fun {n} => mem_registered_of_build (n := n) hg
  have hnamed₀ := Draft.isNamed_gathered ha
  have hnamed := (shown_prepare ha h).named
  obtain ⟨_, -, hg₀, -⟩ := build_yields hg₀
  obtain ⟨_, -, hg, -⟩ := build_yields hg
  refine ⟨fun n => ?_, fun n hn => ?_, fun c₀ hc₀ hkept => ?_, fun c hc => ?_⟩
  · rw [hregistered, hregistered₀]
    simp
  · obtain ⟨r, hr, -⟩ := (mem_removed_prepare ha h).1 hn
    rw [names_of_graphOf hnamed₀ hg₀, ← OrderedMap.get?_isSome_iff, hr]
    rfl
  · obtain ⟨r₀, hr₀, rfl⟩ := (mem_classes_iff_of_graphOf hnamed₀ hg₀).1 hc₀
    obtain ⟨r, hr, hlinks⟩ := exists_prepared_of_get? ha h hr₀ hkept
    have hname : r.name = r₀.name := hnamed _ _ hr
    exact ⟨_, (mem_classes_iff_of_graphOf hnamed hg).2 ⟨r, hname ▸ hr, rfl⟩, hname, hlinks⟩
  · obtain ⟨r, hr, rfl⟩ := (mem_classes_iff_of_graphOf hnamed hg).1 hc
    rcases get?_of_prepare ha h hr with hlinks | ⟨r₀, hr₀, hkept, hlinks⟩
    · exact .inl hlinks
    · have hname : r₀.name = r.name := hnamed₀ _ _ hr₀
      refine .inr ⟨_, (mem_classes_iff_of_graphOf hnamed₀ hg₀).2 ⟨r₀, hname ▸ hr₀, rfl⟩, hname, ?_, hlinks⟩
      change r₀.name ∉ p.removed
      rwa [hname]

/-- After classes have been removed, a reference that leads to no class is unresolved exactly if it was so
before, or if its name was an alternate one of removed classes and of no others; the full name of a removed
class is not unresolved. When the graph is resolved, these are the references that are flaws. -/
theorem removal_loses_only_alternate_names {policy : MergePolicy} {files : List ParsedFile}
    {k k' l l' : Journal} (h : (prepare s (Aggregation.ofFiles policy files)).Yields j p j')
    (hg₀ : (build external ⟨(Aggregation.ofFiles policy files).classes, []⟩).Yields k g₀ k')
    (hg : (build external p).Yields l g l') :
    (∀ n, n ∈ g.unresolved ↔ (∃ c ∈ g.classes, n ∈ c.references) ∧ n ∉ g.names ∧
      (n ∈ g₀.unresolved ∨ g₀.LosesAlternate p.removed n)) ∧
      (∀ n ∈ p.removed, n ∉ g.unresolved) ∧
      ∀ m g' m', (resolve s g).Yields m g' m' → ∀ options earlier, ∀ c ∈ g'.classes, ∀ kind n,
        Lint.notFound c kind n ∈ g'.lint options earlier ↔
          (kind.name, n) ∈ Lint.namedReferences c ∧ n ∈ g.unresolved := by
  have hleft := isLeftOf_build (Aggregation.gathers_ofFiles policy files) h hg₀ hg
  refine ⟨fun n => hleft.mem_unresolved_iff, fun n hn hunresolved => ?_, ?_⟩
  · exact (ClassGraph.mem_unresolved.1 hunresolved).2.2 ((hleft.registered n).2 (.inr hn))
  · intro m g' m' hresolve options earlier c hc kind n
    obtain ⟨⟨o, rfl⟩, -⟩ := resolve_yields hresolve
    rw [ClassGraph.mem_lint_notFound hc, (ClassGraph.SameFrame.resolved g o).unresolved_eq]

/-- A class that is ignored and has another name, by which one class extends it that mixes it in as well. -/
def renamedBase : ParsedFile := ⟨"base.yml", [
  { subject := .cls, name := "Base", ignored := true, alternateNames := ["Old"] },
  { subject := .cls, name := "Panel", parent := some "Old", mixins := ["Base"] }]⟩

/-- What is prepared of one file, its graphs before and after classes are removed, and the resolved one. -/
def builtTwice (file : ParsedFile) : Run (Prepared × ClassGraph × ClassGraph × ClassGraph) := do
  let a := Aggregation.ofFiles .first [file]
  let p ← prepare .empty a
  let g₀ ← build [] ⟨a.classes, []⟩
  let g ← build [] p
  return (p, g₀, g, ← resolve .empty g)

/-- What is asked about the graphs of a file. -/
def unresolvedOf (b : Prepared × ClassGraph × ClassGraph × ClassGraph) :
    List (List String) × List (String × Option String) :=
  ([b.1.removed, b.2.1.unresolved, b.2.2.1.unresolved], b.2.2.1.classes.map fun c => (c.name, c.parent))

lemma exists_builtTwice_renamedBase :
    ∃ p j g₀ k g l g' m, (prepare .empty (Aggregation.ofFiles .first [renamedBase])).Yields [] p j ∧
      (build [] ⟨(Aggregation.ofFiles .first [renamedBase]).classes, []⟩).Yields j g₀ k ∧
      (build [] p).Yields k g l ∧ (resolve .empty g).Yields l g' m ∧ p.removed = ["Base"] ∧
      g₀.unresolved = [] ∧ g.unresolved = ["Old"] ∧
      g'.classes.map (fun c => (c.name, c.parent)) = [("Panel", some "Old")] := by
  have hrun : (builtTwice renamedBase).finish.1.toOption.map unresolvedOf =
      some ([["Base"], [], ["Old"]], [("Panel", some "Old")]) := by decide +kernel
  rcases hfin : (builtTwice renamedBase).finish with ⟨e | b, m⟩
  · simp [hfin, Except.toOption] at hrun
  · simp only [hfin, Except.toOption, Option.map_some, Option.some_inj] at hrun
    have hsteps := Run.finish_eq_iff.1 hfin
    simp only [builtTwice, Run.yields_bind, Run.yields_pure] at hsteps
    obtain ⟨p, j, hp, g₀, k, hg₀, g, l, hg, g', _, hg', rfl, rfl⟩ := hsteps
    simp only [unresolvedOf, Prod.mk.injEq, List.cons.injEq, and_true] at hrun
    obtain ⟨⟨hremoved, hbefore, hafter⟩, hclasses⟩ := hrun
    obtain ⟨⟨o, hresolved⟩, -⟩ := resolve_yields hg'
    have hframe := hresolved ▸ (ClassGraph.SameFrame.resolved g o).classes
    have hsame := congrArg (List.map fun f => (f.1, f.2.1.parent)) hframe
    rw [List.map_map, List.map_map] at hsame
    exact ⟨p, j, g₀, k, g, l, g', _, hp, hg₀, hg, hg', hremoved, hbefore, hafter, hsame.trans hclasses⟩

/-- A reference by an alternate name of a class that is removed comes to be unresolved. -/
theorem not_removal_loses_only_alternate_names :
    ¬∀ (policy : MergePolicy) (files : List ParsedFile) s j p j' external k g₀ k' l g l',
      (prepare s (Aggregation.ofFiles policy files)).Yields j p j' →
        (build external ⟨(Aggregation.ofFiles policy files).classes, []⟩).Yields k g₀ k' →
          (build external p).Yields l g l' → ∀ n ∈ g.unresolved, n ∈ g₀.unresolved := by
  intro h
  obtain ⟨p, j, g₀, k, g, l, -, -, hp, hg₀, hg, -, -, hbefore, hafter, -⟩ :=
    exists_builtTwice_renamedBase
  have hold : "Old" ∈ g₀.unresolved := by
    apply h .first [renamedBase] .empty [] p j [] j g₀ k k g l hp hg₀ hg
    simp [hafter]
  simp [hbefore] at hold

theorem removal_loses_only_alternate_names_renamed :
    ∃ p j g₀ k g l g' m, (prepare .empty (Aggregation.ofFiles .first [renamedBase])).Yields [] p j ∧
      (build [] ⟨(Aggregation.ofFiles .first [renamedBase]).classes, []⟩).Yields j g₀ k ∧
      (build [] p).Yields k g l ∧ (resolve .empty g).Yields l g' m ∧
      "Base" ∉ g.unresolved ∧ g₀.LosesAlternate p.removed "Old" ∧
      ∀ options earlier, ∃ c ∈ g'.classes,
        Lint.notFound c .parent "Old" ∈ g'.lint options earlier ∧
        Lint.notFound c .mixin "Base" ∉ g'.lint options earlier := by
  obtain ⟨p, j, g₀, k, g, l, g', m, hp, hg₀, hg, hg', hremoved, hbefore, hafter, hclasses⟩ :=
    exists_builtTwice_renamedBase
  obtain ⟨hunresolved, hfull, hlint⟩ := removal_loses_only_alternate_names hp hg₀ hg
  have hbase : "Base" ∉ g.unresolved := hfull _ (by simp [hremoved])
  have hold : g₀.LosesAlternate p.removed "Old" := by
    have hmem := ((hunresolved "Old").1 (by simp [hafter])).2.2
    exact hmem.resolve_left (by simp [hbefore])
  refine ⟨p, j, g₀, k, g, l, g', m, hp, hg₀, hg, hg', hbase, hold, fun options earlier => ?_⟩
  obtain ⟨c, hc, hpanel⟩ := List.mem_map.1
    (hclasses ▸ List.mem_singleton_self _ : ("Panel", some "Old") ∈ g'.classes.map _)
  have hparent : c.parent = some "Old" := congrArg Prod.snd hpanel
  refine ⟨c, hc, ?_, ?_⟩
  · rw [hlint l g' m hg' options earlier c hc, hafter]
    simp [Lint.namedReferences, hparent, ClassGraph.EdgeKind.name]
  · rw [hlint l g' m hg' options earlier c hc]
    exact fun hbad => hbase hbad.2

end Batch

end DocGraph
