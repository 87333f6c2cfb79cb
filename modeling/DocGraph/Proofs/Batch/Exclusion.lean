import DocGraph.Proofs.Batch.Built
import DocGraph.Proofs.Batch.Frame
import DocGraph.Proofs.Value.Order
import Mathlib.Tactic.Common

/-!
# Ignored classes and members

What is to be ignored is dropped before anything else is done to a catalog. No member that is ignored
comes back. A class comes back in one case: if the class of global members is ignored and there are global
members that are not. The names of the other ignored classes are external.
-/

namespace DocGraph

open Catalog

namespace Catalog

variable {c : Catalog} {n : String} {orphans : List Fragment}

lemma mem_names_dropIgnored : n ∈ (dropIgnored c).names ↔ ∃ r, c.get? n = some r ∧ r.ignored = true := by
  simp only [dropIgnored, ignoredNames, inOrder, List.mem_mergeSort, List.mem_map, List.mem_filter]
  constructor
  · rintro ⟨e, ⟨he, hi⟩, rfl⟩
    exact ⟨e.2, OrderedMap.get?_eq_some_iff.2 he, hi⟩
  · rintro ⟨r, hr, hi⟩
    exact ⟨(n, r), ⟨OrderedMap.get?_eq_some_iff.1 hr, hi⟩, rfl⟩

/-- A class that is ignored is not in the catalog once it has been dropped. -/
lemma get?_of_mem_names_dropIgnored (h : n ∈ (dropIgnored c).names) :
    (dropIgnored c).classes.get? n = none := by
  obtain ⟨r, hr, hi⟩ := mem_names_dropIgnored.1 h
  rw [get?_dropIgnored, hr]
  simp [hi]

/-- There are global members as soon as one member without a class is not ignored. -/
lemma globalMembers_ne_nil_iff (h : ∀ f ∈ orphans, f.key?.isSome) :
    globalMembers orphans ≠ [] ↔ ∃ f ∈ orphans, f.ignored = false := by
  constructor
  · intro hne
    obtain ⟨m, hm⟩ := List.exists_mem_of_ne_nil _ hne
    obtain ⟨f, hf, -⟩ := List.mem_filterMap.1 hm
    obtain ⟨hmem, hi⟩ := List.mem_filter.1 hf
    exact ⟨f, hmem, by simpa using hi⟩
  · rintro ⟨f, hmem, hi⟩
    obtain ⟨key, hkey⟩ := Option.isSome_iff_exists.1 (h f hmem)
    have hglobal : (key, f) ∈ globalMembers orphans := by
      refine List.mem_filterMap.2 ⟨f, List.mem_filter.2 ⟨hmem, by simp [hi]⟩, ?_⟩
      rw [hkey]
      rfl
    exact List.ne_nil_of_mem hglobal

/-- A name that stands for no class comes to stand for one only as that of the class of global members. -/
lemma get?_hoistGlobals_of_none (h : c.get? n = none) (orphans : List Fragment) (unwanted : Bool) :
    (hoistGlobals c orphans unwanted).classes.get? n =
      if n = globalName ∧ unwanted = false ∧ globalMembers orphans ≠ [] then
        some (globalRecord.absorb globalName (globalMembers orphans))
      else none := by
  rw [hoistGlobals]
  cases unwanted with
  | true => simpa using h
  | false =>
    cases hglobals : globalMembers orphans with
    | nil => simpa using h
    | cons m ms =>
      simp only [Bool.false_or, List.isEmpty_cons, Bool.false_eq_true, if_false, OrderedMap.get?_insert,
        fst_foldl_defineIn]
      by_cases hn : n = globalName
      · subst hn
        simp [h]
      · have hn' : globalName ≠ n := fun he => hn he.symm
        simp [hn, hn', h]

end Catalog

namespace Batch

variable {s : Settings} {a : Aggregation} {fs : List Fragment} {j j' : Journal} {p : Prepared}
  {n : String} {external : List Scalar} {g : ClassGraph}

lemma ignoresGlobals_of_draftOf {d : Draft} (h : draftOf s a = .ok d) :
    s.ignoresGlobals = .ok d.unwanted := by
  simp only [draftOf, bind_eq_ok, pure_eq_ok] at h
  obtain ⟨unwanted, hunwanted, _, -, _, -, rfl⟩ := h
  exact hunwanted

/-- No pass brings a member back that is ignored. -/
lemma shown_prepare (ha : a.Gathers fs) (h : (prepare s a).Yields j p j') :
    p.classes.Satisfies Placing.shown := by
  obtain ⟨d, -, rfl, hclasses⟩ := prepare_yields h
  rw [hclasses]
  exact Draft.shown_catalog ha d.options

/-- An ignored class is prepared only if it is the class of global members, and there are any. -/
lemma mem_keys_prepare (ha : a.Gathers fs) (h : (prepare s a).Yields j p j')
    (hn : n ∈ (dropIgnored a.classes).names) :
    n ∈ p.classes.keys ↔
      n = globalName ∧ s.ignoresGlobals = .ok false ∧ ∃ f ∈ a.orphans, f.ignored = false := by
  obtain ⟨d, hd, rfl, hclasses⟩ := prepare_yields h
  -- what is set aside while gathering are members, so those that are shown are global members
  have horphans : ∀ f ∈ d.gathered.orphans, f.key?.isSome := by
    intro f hf
    rw [ha.orphans] at hf
    have horphan := (List.mem_filter.1 hf).2
    rw [Fragment.isOrphan, Bool.and_eq_true] at horphan
    exact horphan.1
  have hwritten := get?_hoistGlobals_of_none (get?_of_mem_names_dropIgnored hn) d.gathered.orphans
    d.unwanted
  rw [← Draft.written] at hwritten
  rw [← OrderedMap.get?_isSome_iff, hclasses, Draft.get?_catalog (Draft.isNamed_written ha), hwritten,
    ignoresGlobals_of_draftOf hd, Except.ok.injEq, ← globalMembers_ne_nil_iff horphans]
  split
  · next hglobal => simp [hglobal, globalRecord]
  · next hglobal => simp [hglobal]

/-! ### Built graphs -/

lemma names_of_graphOf {c : Catalog} (h : c.IsNamed) (hg : graphOf c external = .ok g) :
    g.names = c.keys := by
  rw [ClassGraph.names, classes_of_graphOf hg, List.map_map, ← h.map_name]
  rfl

lemma registered_of_graphOf {c : Catalog} (hg : graphOf c external = .ok g) :
    g.registered = external.filterMap Scalar.text? := by
  simp only [graphOf, namesAndOthers, ClassGraph.ofClasses] at hg
  split at hg
  · simp [Except.mapError] at hg
  · simp only [Except.mapError, Except.ok.injEq] at hg
    rw [← hg]

lemma mem_registered_of_build (hg : (build external p).Yields j g j') :
    n ∈ g.registered ↔ .text n ∈ external ∨ n ∈ p.removed := by
  obtain ⟨names, hnames, hgraph, -⟩ := build_yields hg
  have htext : n ∈ names.filterMap Scalar.text? ↔ .text n ∈ names := by
    rw [List.mem_filterMap]
    constructor
    · rintro ⟨s, hs, hn⟩
      cases s <;> simp [Scalar.text?] at hn
      exact hn ▸ hs
    · intro hn
      exact ⟨_, hn, rfl⟩
  rw [registered_of_graphOf hgraph, htext, (Scalar.perm_arranged hnames).mem_iff,
    Scalar.text_mem_distinct, List.mem_append]
  simp

/-- The names that a preparation has removed are external, unless they are names of classes. -/
lemma mem_external_of_mem_removed (hg : (build external p).Yields j g j') (hn : n ∈ p.removed) :
    n ∈ g.external ↔ n ∉ g.names := by
  rw [ClassGraph.mem_external, mem_registered_of_build hg]
  exact and_iff_right (.inr hn)

/-- Nothing that is ignored is among the members of a prepared catalog. Of the ignored classes, a graph that
is built of it and resolved has at most the class of global members, which it has if some global member is
not ignored; the names of the others are external. -/
theorem prepare_excludes_ignored {policy : MergePolicy} {files : List ParsedFile}
    (h : (prepare s (Aggregation.ofFiles policy files)).Yields j p j') :
    let a := Aggregation.ofFiles policy files
    (∀ ref f, p.classes.member? ref = some f → f.ignored = false) ∧
      ∀ external k g k', (build external p).Yields k g k' →
        (∀ n ∈ (dropIgnored a.classes).names,
          (n ∈ g.names ↔ n = globalName ∧ s.ignoresGlobals = .ok false ∧
            ∃ f ∈ a.orphans, f.ignored = false) ∧
          (n ∈ g.external ↔ n ∉ g.names)) ∧
        ∀ l g' l', (resolve s g).Yields l g' l' → g'.names = g.names ∧ g'.external = g.external := by
  intro a
  have ha := Aggregation.gathers_ofFiles policy files
  constructor
  · intro ref f hf
    exact (shown_prepare ha h).of_member? hf
  · intro external k g k' hg
    constructor
    · intro n hn
      obtain ⟨names, -, hgraph, -⟩ := build_yields hg
      obtain ⟨d, -, -, _, _, -, -, rfl, -⟩ := prepare_passes h
      rw [names_of_graphOf (shown_prepare ha h).named hgraph]
      refine ⟨mem_keys_prepare ha h hn, ?_⟩
      -- the names are among those that the preparation has removed
      rw [← names_of_graphOf (shown_prepare ha h).named hgraph]
      exact mem_external_of_mem_removed hg (List.mem_append_left _ hn)
    · intro l g' l' hresolve
      obtain ⟨⟨o, rfl⟩, -⟩ := resolve_yields hresolve
      have hframe := ClassGraph.SameFrame.resolved g o
      exact ⟨hframe.names_eq, hframe.external_eq⟩

/-- The graph that is built of one file. -/
def builtOf (file : ParsedFile) : Run ClassGraph :=
  prepare .empty (Aggregation.ofFiles .first [file]) >>= build []

lemma exists_builtOf {file : ParsedFile} {names external : List String}
    (h : (builtOf file).finish.1.toOption.map (fun g => (g.names, g.external)) =
      some (names, external)) :
    ∃ p j g k, (prepare .empty (Aggregation.ofFiles .first [file])).Yields [] p j ∧
      (build [] p).Yields j g k ∧ g.names = names ∧ g.external = external := by
  rcases hfin : (builtOf file).finish with ⟨e | g, k⟩
  · simp [hfin, Except.toOption] at h
  · simp only [hfin, Except.toOption, Option.map_some, Option.some_inj, Prod.mk.injEq] at h
    obtain ⟨p, j, hp, hg⟩ := Run.yields_bind.1 (Run.finish_eq_iff.1 hfin)
    exact ⟨p, j, g, k, hp, hg, h.1, h.2⟩

/-- The class of global members is ignored, and a global member is not. -/
def ignoredGlobals : ParsedFile := ⟨"app.yml", [
  { subject := .cls, name := globalName, ignored := true },
  { subject := .member .method, name := "log" }]⟩

/-- An ignored class may be in the graph, and its name is not external then. -/
theorem not_prepare_excludes_ignored :
    ¬∀ (policy : MergePolicy) (files : List ParsedFile) s j p j' external k g k',
      (prepare s (Aggregation.ofFiles policy files)).Yields j p j' →
        (build external p).Yields k g k' →
          ∀ n ∈ (dropIgnored (Aggregation.ofFiles policy files).classes).names,
            n ∉ g.names ∧ n ∈ g.external := by
  intro h
  obtain ⟨p, j, g, k, hp, hg, hnames, -⟩ :=
    exists_builtOf (show (builtOf ignoredGlobals).finish.1.toOption.map _ = some ([globalName], []) by decide +kernel)
  have hignored : globalName ∈
      (dropIgnored (Aggregation.ofFiles .first [ignoredGlobals]).classes).names := by
    rw [mem_names_dropIgnored]
    exact ⟨_, rfl, rfl⟩
  have hnot := (h .first [ignoredGlobals] .empty [] p j [] j g k hp hg _ hignored).1
  simp [hnames] at hnot

/-- A class is ignored, and a member of another one. -/
def ignoredInternal : ParsedFile := ⟨"app.yml", [
  { subject := .cls, name := "Panel" },
  { subject := .member .method, name := "draw", owner := some "Panel", ignored := true },
  { subject := .cls, name := "Panel.Internal", ignored := true },
  { subject := .member .method, name := "log" }]⟩

theorem prepare_excludes_ignored_internal :
    ∃ p j g k, (prepare .empty (Aggregation.ofFiles .first [ignoredInternal])).Yields [] p j ∧
      (build [] p).Yields j g k ∧
      (∀ f, p.classes.member? ⟨"Panel", .method, "draw"⟩ = some f → f.ignored = false) ∧
      g.names = ["Panel", globalName] ∧ "Panel.Internal" ∉ g.names ∧
      "Panel.Internal" ∈ g.external := by
  obtain ⟨p, j, g, k, hp, hg, hnames, -⟩ := exists_builtOf
    (show (builtOf ignoredInternal).finish.1.toOption.map _ =
      some (["Panel", globalName], ["Panel.Internal"]) by decide +kernel)
  obtain ⟨hshown, hbuilt⟩ := prepare_excludes_ignored hp
  have hignored : "Panel.Internal" ∈
      (dropIgnored (Aggregation.ofFiles .first [ignoredInternal]).classes).names := by
    rw [mem_names_dropIgnored]
    exact ⟨_, rfl, rfl⟩
  obtain ⟨hmem, hexternal⟩ := (hbuilt [] j g k hg).1 _ hignored
  have hnot : "Panel.Internal" ∉ g.names := by
    rw [hmem]
    rintro ⟨hglobal, -⟩
    exact absurd hglobal (by decide)
  exact ⟨p, j, g, k, hp, hg, fun f => hshown _ f, hnames, hnot, hexternal.2 hnot⟩

end Batch

end DocGraph
