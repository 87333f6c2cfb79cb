import DocGraph.Graph.Export
import DocGraph.Proofs.Graph.Ancestors
import DocGraph.Proofs.Graph.Outline

/-!
# Relations in exports

An export shows every relation from both sides, and the superclasses beside the parents they come from.
Each of these lists is found by a search of its own through the graph. Main statement: once the cycles
of a graph are cut, the lists agree with each other, and they name no class that the export leaves out.
-/

namespace DocGraph

/-! ### Consistency -/

namespace GraphExport

/-- The names of the classes. -/
def names (e : GraphExport) : List String := e.classes.map ClassEntry.name

/-- A name is listed as that of a class outside the graph. -/
def IsStub (e : GraphExport) (n : String) : Prop := .text n ∈ e.external ∨ n ∈ e.unresolved

/-- The relations of all classes agree with each other. -/
structure IsConsistent (e : GraphExport) : Prop where
  rising : e.names.Pairwise (· < ·)
  mem_subclasses : ∀ d ∈ e.classes, ∀ p ∈ e.classes, d.name ∈ p.subclasses ↔ d.parent = some p.name
  mem_mixedInto : ∀ d ∈ e.classes, ∀ m ∈ e.classes, d.name ∈ m.mixedInto ↔ m.name ∈ d.mixins
  superclasses_root : ∀ d ∈ e.classes, d.parent = none → d.superclasses = []
  superclasses_class : ∀ d ∈ e.classes, ∀ p ∈ e.classes, d.parent = some p.name →
    d.superclasses = p.superclasses ++ [p.name]
  superclasses_stub : ∀ d ∈ e.classes, ∀ p, d.parent = some p → p ∉ e.names → d.superclasses = [p]
  not_mem_superclasses : ∀ d ∈ e.classes, d.name ∉ d.superclasses
  /-- Whatever is named is a class or a stub. -/
  known : ∀ d ∈ e.classes, ∀ n ∈ d.parent.toList ++ d.superclasses ++ d.mixins,
    n ∈ e.names ∨ e.IsStub n

end GraphExport

namespace ClassGraph

variable {g : ClassGraph} {c d : DocClass} {n p m : String} {ds : List Diagnostic} {withTree : Bool}

/-! ### Names -/

/-- What a class refers to is a class or a stub, under the name that the graph gives it. -/
lemma canonical_mem_names_or_isStub (hc : c ∈ g.classes) (hn : n ∈ c.references) :
    g.canonical n ∈ g.names ∨ g.isStub (g.canonical n) := by
  cases h : g.find? n with
  | some d =>
    left
    exact canonical_mem_names h
  | none =>
    right
    rw [canonical_eq_self_of_find? h, isStub_iff]
    exact (xor_external_unresolved hc hn h).or

lemma mem_names_or_isStub_of_parentOf (h : g.parentOf n = some p) : p ∈ g.names ∨ g.isStub p := by
  obtain ⟨c, hc⟩ := exists_find?_of_parentOf h
  rw [parentOf_eq hc] at h
  split at h
  · simp at h
  · obtain ⟨q, hq, rfl⟩ := Option.map_eq_some_iff.1 h
    apply canonical_mem_names_or_isStub (mem_classes_of_find? hc)
    simp [DocClass.references, hq]

lemma mem_names_or_isStub_of_mixinsOf (h : m ∈ g.mixinsOf n) : m ∈ g.names ∨ g.isStub m := by
  obtain ⟨⟨c, hc, hm⟩, -⟩ := mem_mixinsOf.1 h
  obtain ⟨q, hq, rfl⟩ := List.mem_map.1 hm
  apply canonical_mem_names_or_isStub (mem_classes_of_find? hc)
  simp [DocClass.references, hq]

lemma mem_names_or_isStub_of_ancestorNames (h : p ∈ g.ancestorNames n) :
    p ∈ g.names ∨ g.isStub p := by
  obtain ⟨q, -, hq⟩ := Relation.TransGen.tail'_iff.1 (transGen_of_mem_ancestorsFrom h)
  exact mem_names_or_isStub_of_parentOf hq

/-! ### Both sides of a relation -/

lemma mem_subclasses_iff (hc : c ∈ g.classes) (hd : d ∈ g.classes) :
    d.name ∈ Catalog.inOrder ((g.subclasses c.name).map DocClass.name) ↔
      g.parentOf d.name = some c.name := by
  have hcanon : g.canonical c.name = c.name := canonical_eq_name (find?_name hc)
  rw [Catalog.inOrder, List.mem_mergeSort, List.mem_map]
  simp only [subclasses, hcanon, List.mem_filter, decide_eq_true_eq]
  constructor
  · rintro ⟨d', ⟨-, hparent⟩, hname⟩
    exact hname ▸ hparent
  · intro hparent
    exact ⟨d, ⟨hd, hparent⟩, rfl⟩

lemma mem_mixedInto_iff (hc : c ∈ g.classes) (hd : d ∈ g.classes) :
    d.name ∈ Catalog.inOrder ((g.mixedInto c.name).map DocClass.name) ↔
      c.name ∈ g.mixinsOf d.name := by
  have hcanon : g.canonical c.name = c.name := canonical_eq_name (find?_name hc)
  rw [Catalog.inOrder, List.mem_mergeSort, List.mem_map]
  simp only [mixedInto, hcanon, List.mem_filter, decide_eq_true_eq]
  constructor
  · rintro ⟨d', ⟨-, hmixin⟩, hname⟩
    exact hname ▸ hmixin
  · intro hmixin
    exact ⟨d, ⟨hd, hmixin⟩, rfl⟩

/-! ### Exports of graphs -/

lemma forall_mem_classes_plainData {P : ClassEntry → Prop} :
    (∀ e ∈ (g.plainData ds withTree).classes, P e) ↔ ∀ c ∈ g.classes, P (g.entry c) := by
  simp [plainData, sortedClasses]

lemma names_plainData (g : ClassGraph) (ds : List Diagnostic) (withTree : Bool) :
    (g.plainData ds withTree).names = g.sortedNames := by
  rw [GraphExport.names, plainData, List.map_map, sortedClasses, sortedNames, Catalog.inOrder, names]
  exact List.map_mergeSort fun _ _ _ _ => rfl

lemma isStub_plainData (h : g.isStub n) : (g.plainData ds withTree).IsStub n := by
  rcases isStub_iff.1 h with h | h
  · left
    simp [plainData, Catalog.inOrder, h]
  · right
    simp [plainData, Catalog.inOrder, h]

/-- Where no parents lead back to a class, the superclasses follow the parents. -/
lemma isConsistent_plainData (h : ∀ n, ¬Relation.TransGen g.ParentEdge n n) (ds : List Diagnostic)
    (withTree : Bool) : (g.plainData ds withTree).IsConsistent where
  rising := by
    rw [names_plainData]
    exact g.pairwise_sortedNames
  mem_subclasses := by
    simp only [forall_mem_classes_plainData]
    intro d hd p hp
    exact mem_subclasses_iff hp hd
  mem_mixedInto := by
    simp only [forall_mem_classes_plainData]
    intro d hd m hm
    exact mem_mixedInto_iff hm hd
  superclasses_root := by
    simp only [forall_mem_classes_plainData]
    intro d hd hparent
    exact congrArg List.reverse (ancestorsFrom_of_none hparent)
  superclasses_class := by
    simp only [forall_mem_classes_plainData]
    intro d hd p hp hparent
    have hancestors := ancestorNames_of_class (h d.name) hparent (List.mem_map_of_mem hp)
    simp only [entry, hancestors, List.reverse_cons]
  superclasses_stub := by
    simp only [forall_mem_classes_plainData, names_plainData, mem_sortedNames]
    intro d hd p hparent hstub
    have hancestors := ancestorNames_of_stub (List.mem_map_of_mem hd) hparent hstub
    simp only [entry, hancestors, List.reverse_singleton]
  not_mem_superclasses := by
    simp only [forall_mem_classes_plainData]
    intro d hd hmem
    apply not_mem_seen_of_mem_ancestorsFrom (List.mem_reverse.1 hmem)
    exact List.mem_singleton_self d.name
  known := by
    simp only [forall_mem_classes_plainData, names_plainData, mem_sortedNames, List.forall_mem_append]
    intro d hd
    refine ⟨⟨?_, ?_⟩, ?_⟩
    all_goals
      intro n hn
      apply Or.imp_right isStub_plainData
    · exact mem_names_or_isStub_of_parentOf (Option.mem_toList.1 hn)
    · exact mem_names_or_isStub_of_ancestorNames (List.mem_reverse.1 hn)
    · exact mem_names_or_isStub_of_mixinsOf hn

/-- The export of a graph whose cycles are cut has all its classes, in strictly rising order, and its
relations are consistent. -/
theorem plainData_cutCycles_consistent (g : ClassGraph) (ds : List Diagnostic) (withTree : Bool) :
    (g.cutCycles.1.plainData ds withTree).names = g.sortedNames ∧
      (g.cutCycles.1.plainData ds withTree).IsConsistent := by
  obtain ⟨cutParents, cutMixins, hcut⟩ := g.exists_cutCycles_eq
  constructor
  · rw [names_plainData, hcut]
    rfl
  · exact isConsistent_plainData g.not_transGen_parentEdge_cutCycles ds withTree

end ClassGraph

end DocGraph
