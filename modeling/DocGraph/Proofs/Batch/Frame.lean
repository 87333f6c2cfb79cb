import DocGraph.Proofs.Batch.Course
import DocGraph.Proofs.Graph.Outline
import DocGraph.Proofs.Inheritance.Origin

/-!
# The frame of a graph

Resolving a graph cuts edges and changes members. The frame around them stays as it was built: the names
of the classes, the names by which they refer to each other, the definitions that they have shadowed, and
the names that are registered as external.
-/

namespace DocGraph

/-- The names by which a class refers to others, and by which others may refer to it. -/
structure Links where
  parent : Option String := none
  mixins : List String := []
  alternateNames : List String := []

namespace DocClass

/-- The names to and from a class. -/
def links (c : DocClass) : Links := ⟨c.parent, c.mixins, c.alternateNames⟩

/-- The name of a class, the names to and from it, and the definitions that it has shadowed. -/
def frame (c : DocClass) : String × Links × List Fragment := (c.name, c.links, c.shadowed)

end DocClass

namespace ClassGraph

variable {g g' g'' : ClassGraph}

/-- Two graphs have classes of the same frames, and the same external names. -/
structure SameFrame (g g' : ClassGraph) : Prop where
  classes : g'.classes.map DocClass.frame = g.classes.map DocClass.frame
  registered : g'.registered = g.registered

namespace SameFrame

lemma trans (h : g.SameFrame g') (h' : g'.SameFrame g'') : g.SameFrame g'' :=
  ⟨h'.classes.trans h.classes, h'.registered.trans h.registered⟩

lemma mapClasses (g : ClassGraph) {f : DocClass → DocClass} (hname : ∀ c, (f c).name = c.name)
    (hf : ∀ c, (f c).frame = c.frame) : g.SameFrame (g.mapClasses f hname) := by
  refine ⟨?_, rfl⟩
  rw [ClassGraph.mapClasses, List.map_map]
  exact List.map_congr_left fun c _ => hf c

lemma cutCycles (g : ClassGraph) : g.SameFrame g.cutCycles.1 := by
  obtain ⟨_, _, hg⟩ := g.exists_cutCycles_eq
  rw [hg]
  exact ⟨rfl, rfl⟩

lemma inheritDocs (g : ClassGraph) : g.SameFrame g.inheritDocs.1 := by
  obtain ⟨f, hf, h⟩ := ((Inheriting.run_settleAll g).sound (Inheriting.sound_start g)).shape
  change g.SameFrame (Inheriting.settleAll g).graph
  rw [h]
  exact mapClasses g _ fun _ => rfl

lemma withVersions (g : ClassGraph) (o : VersionOptions) : g.SameFrame (g.withVersions o) :=
  mapClasses g _ fun _ => rfl

lemma settleReturns (g : ClassGraph) : g.SameFrame g.settleReturns := mapClasses g _ fun _ => rfl

/-- A graph that is resolved has the frame of the one that was built. -/
lemma resolved (g : ClassGraph) (o : VersionOptions) :
    g.SameFrame (g.cutCycles.1.inheritDocs.1.withVersions o).settleReturns := by
  apply (cutCycles g).trans
  apply (inheritDocs _).trans
  exact (withVersions _ o).trans (settleReturns _)

lemma names_eq (h : g.SameFrame g') : g'.names = g.names := by
  have hnames := congrArg (List.map Prod.fst) h.classes
  rwa [List.map_map, List.map_map] at hnames

lemma external_eq (h : g.SameFrame g') : g'.external = g.external := by
  rw [external, external, h.names_eq, h.registered]

lemma symm (h : g.SameFrame g') : g'.SameFrame g := ⟨h.classes.symm, h.registered.symm⟩

lemma exists_class (h : g.SameFrame g') {c : DocClass} (hc : c ∈ g'.classes) :
    ∃ c₀ ∈ g.classes, c.name = c₀.name ∧ c.links = c₀.links ∧ c.shadowed = c₀.shadowed := by
  have hmem : c.frame ∈ g.classes.map DocClass.frame := h.classes ▸ List.mem_map_of_mem hc
  obtain ⟨c₀, hc₀, hframe⟩ := List.mem_map.1 hmem
  simp only [DocClass.frame, Prod.mk.injEq] at hframe
  obtain ⟨hname, hlinks, hshadowed⟩ := hframe
  exact ⟨c₀, hc₀, hname.symm, hlinks.symm, hshadowed.symm⟩

lemma isSome_find?_iff (h : g.SameFrame g') {n : String} :
    (g'.find? n).isSome ↔ (g.find? n).isSome := by
  have himp : ∀ {g g' : ClassGraph}, g.SameFrame g' → (∃ c ∈ g'.classes, n ∈ c.alternateNames) →
      ∃ c ∈ g.classes, n ∈ c.alternateNames := by
    rintro g g' h ⟨c, hc, hn⟩
    obtain ⟨c₀, hc₀, -, hlinks, -⟩ := h.exists_class hc
    have hnames : c.alternateNames = c₀.alternateNames := congrArg Links.alternateNames hlinks
    exact ⟨c₀, hc₀, hnames ▸ hn⟩
  rw [ClassGraph.isSome_find?_iff, ClassGraph.isSome_find?_iff, h.names_eq]
  exact or_congr_right ⟨himp h, himp h.symm⟩

lemma unresolved_eq (h : g.SameFrame g') : g'.unresolved = g.unresolved := by
  have hknown : g'.isKnown = g.isKnown := by
    funext n
    rw [isKnown, isKnown, Bool.eq_iff_iff.2 h.isSome_find?_iff, h.registered]
  have hreferences : g'.classes.flatMap DocClass.references = g.classes.flatMap DocClass.references := by
    have hlinks := congrArg (List.flatMap fun p => p.2.1.parent.toList ++ p.2.1.mixins) h.classes
    rwa [List.flatMap_map, List.flatMap_map] at hlinks
  rw [unresolved, unresolved, hknown, hreferences]

end SameFrame

end ClassGraph

end DocGraph
