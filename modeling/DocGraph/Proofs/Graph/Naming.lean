import DocGraph.Proofs.Graph.Edge
import Mathlib.Logic.Basic

/-!
# Names of classes and names of stubs

A name of a graph is that of a class, or external, or unresolved. What it is does not change when edges
are cut. External and unresolved names are told apart by being registered, and no name of a class is
unresolved.

External names are told from full names of classes, but not from alternate ones: an alternate name that
is registered as external is both the name of a class and that of a stub.
-/

namespace DocGraph.ClassGraph

variable {g g' : ClassGraph} {n : String} {cs : List DocClass} {registered : List String}
  {registeredOther : List Scalar}

/-! ### Building -/

lemma firstRepeated_eq_none {seen ns : List String} (hd : ns.Nodup)
    (hseen : ∀ n ∈ ns, n ∉ seen) : firstRepeated seen ns = none := by
  induction ns generalizing seen with
  | nil => rfl
  | cons n ns ih =>
    rw [List.nodup_cons] at hd
    rw [firstRepeated, if_neg (hseen n (List.mem_cons_self ..))]
    apply ih hd.2
    intro m hm hmem
    rcases List.mem_cons.1 hmem with rfl | hmem
    · exact hd.1 hm
    · exact hseen m (List.mem_cons_of_mem _ hm) hmem

/-- Classes of different names have a graph, in which no edge is cut. -/
lemma ofClasses_eq_ok (hd : (cs.map DocClass.name).Nodup) :
    ofClasses cs registered registeredOther =
      .ok { classes := cs, registered, registeredOther, distinct := hd } := by
  have hnone : firstRepeated [] (cs.map DocClass.name) = none := by
    apply firstRepeated_eq_none hd
    simp
  rw [ofClasses]
  split
  · next n h => simp [h] at hnone
  · rfl

/-! ### Names -/

lemma isSome_find?_iff :
    (g.find? n).isSome ↔ n ∈ g.names ∨ ∃ c ∈ g.classes, n ∈ c.alternateNames := by
  simp [find?, names]

lemma find?_eq_none_iff :
    g.find? n = none ↔ n ∉ g.names ∧ ¬∃ c ∈ g.classes, n ∈ c.alternateNames := by
  rw [← Option.not_isSome_iff_eq_none, isSome_find?_iff, not_or]

lemma mem_external : n ∈ g.external ↔ n ∈ g.registered ∧ n ∉ g.names := by
  simp [external, mem_appendNew]

lemma mem_unresolved :
    n ∈ g.unresolved ↔
      (∃ c ∈ g.classes, n ∈ c.references) ∧ g.find? n = none ∧ n ∉ g.registered := by
  simp [unresolved, mem_appendNew, isKnown]

lemma isStub_iff : g.isStub n ↔ n ∈ g.external ∨ n ∈ g.unresolved := by
  simp [isStub]

/-- A registered name is not unresolved. -/
lemma disjoint_external_unresolved (g : ClassGraph) : g.external.Disjoint g.unresolved := by
  intro n hexternal hunresolved
  exact (mem_unresolved.1 hunresolved).2.2 (mem_external.1 hexternal).1

/-- A class has the name of a stub if the name is one of its alternate names and registered. -/
lemma isSome_find?_and_isStub_iff :
    (g.find? n).isSome ∧ g.isStub n ↔
      n ∈ g.registered ∧ n ∉ g.names ∧ ∃ c ∈ g.classes, n ∈ c.alternateNames := by
  rw [isSome_find?_iff, isStub_iff, mem_external]
  constructor
  · rintro ⟨hfound, ⟨hregistered, hn⟩ | hunresolved⟩
    · exact ⟨hregistered, hn, hfound.resolve_left hn⟩
    · have hnone := (mem_unresolved.1 hunresolved).2.1
      rw [← isSome_find?_iff, hnone] at hfound
      simp at hfound
  · rintro ⟨hregistered, hn, halternate⟩
    exact ⟨.inr halternate, .inl ⟨hregistered, hn⟩⟩

/-- What a class refers to and is not in the graph is a stub of one kind. -/
lemma xor_external_unresolved {c : DocClass} (hc : c ∈ g.classes) (hn : n ∈ c.references)
    (h : g.find? n = none) : Xor (n ∈ g.external) (n ∈ g.unresolved) := by
  have hnames : n ∉ g.names := (find?_eq_none_iff.1 h).1
  by_cases hregistered : n ∈ g.registered
  · have hexternal := mem_external.2 ⟨hregistered, hnames⟩
    exact .inl ⟨hexternal, fun hu => g.disjoint_external_unresolved hexternal hu⟩
  · have hunresolved := mem_unresolved.2 ⟨⟨c, hc, hn⟩, h, hregistered⟩
    exact .inr ⟨hunresolved, fun he => g.disjoint_external_unresolved he hunresolved⟩

/-! ### Cuts -/

/-- Edges of a graph have been cut one after the other. -/
inductive CutsTo (g : ClassGraph) : ClassGraph → Prop
  | none : CutsTo g g
  | parent {g' : ClassGraph} (n : String) (h : CutsTo g g') : CutsTo g (g'.cutParent n)
  | mixin {g' : ClassGraph} (n m : String) (h : CutsTo g g') : CutsTo g (g'.cutMixin n m)

/-- Cuts leave everything but the edges that are followed. -/
lemma CutsTo.eq (h : g.CutsTo g') :
    ∃ cutParents cutMixins, g' = { g with cutParents, cutMixins } := by
  induction h with
  | none => exact ⟨_, _, rfl⟩
  | parent n _ ih =>
    obtain ⟨_, _, rfl⟩ := ih
    exact ⟨_, _, rfl⟩
  | mixin n m _ ih =>
    obtain ⟨_, _, rfl⟩ := ih
    exact ⟨_, _, rfl⟩

/-- Whatever is cut in a graph of classes of different names, a name is both that of a class and that of a
stub exactly if it is an alternate name, not also a full one, and registered as external. No name is both
external and unresolved, and every name that a class refers to leads to a class or is one of the two. -/
theorem ofClasses_separates_names (hd : (cs.map DocClass.name).Nodup) (registered : List String)
    (registeredOther : List Scalar) :
    ∃ g₀, ofClasses cs registered registeredOther = .ok g₀ ∧
      ∀ g, g₀.CutsTo g →
        (∀ n, (g.find? n).isSome ∧ g.isStub n ↔
          n ∈ registered ∧ n ∉ cs.map DocClass.name ∧ ∃ c ∈ cs, n ∈ c.alternateNames) ∧
        g.external.Disjoint g.unresolved ∧
        ∀ c ∈ cs, ∀ n ∈ c.references,
          (g.find? n).isSome ∨ Xor (n ∈ g.external) (n ∈ g.unresolved) := by
  refine ⟨_, ofClasses_eq_ok hd, ?_⟩
  intro g hcuts
  obtain ⟨_, _, rfl⟩ := hcuts.eq
  refine ⟨fun n => isSome_find?_and_isStub_iff, disjoint_external_unresolved _, ?_⟩
  intro c hc n hn
  rw [or_iff_not_imp_left, Option.not_isSome_iff_eq_none]
  exact xor_external_unresolved hc hn

/-- A panel that was called a box, and a window that extends the box and mixes in what is missing. -/
def boxedGraph : ClassGraph where
  classes := [
    { name := "Panel", alternateNames := ["Box"] },
    { name := "Window", parent := some "Box", mixins := ["Missing"] }]
  registered := ["Box", "Ext.Base"]
  distinct := by decide

/-- An alternate name of a class may be that of a stub. -/
theorem not_ofClasses_separates_names :
    ¬∀ (cs : List DocClass) (registered : List String) g, ofClasses cs registered = .ok g →
      ∀ n, ¬((g.find? n).isSome ∧ g.isStub n) := by
  intro h
  apply h boxedGraph.classes boxedGraph.registered boxedGraph (ofClasses_eq_ok boxedGraph.distinct) "Box"
  decide

theorem ofClasses_separates_names_boxed :
    (boxedGraph.classes.map DocClass.name).Nodup ∧
      ofClasses boxedGraph.classes ["Box", "Ext.Base"] = .ok boxedGraph ∧
      boxedGraph.CutsTo (boxedGraph.cutParent "Window") ∧
      ((boxedGraph.cutParent "Window").find? "Box").isSome ∧
      (boxedGraph.cutParent "Window").isStub "Box" ∧
      Xor ("Missing" ∈ (boxedGraph.cutParent "Window").external)
        ("Missing" ∈ (boxedGraph.cutParent "Window").unresolved) := by
  have hbuilt : ofClasses boxedGraph.classes ["Box", "Ext.Base"] [] = .ok boxedGraph :=
    ofClasses_eq_ok boxedGraph.distinct
  obtain ⟨g₀, hg₀, h⟩ := ofClasses_separates_names boxedGraph.distinct ["Box", "Ext.Base"] []
  obtain rfl : g₀ = boxedGraph := Except.ok.inj (hg₀.symm.trans hbuilt)
  have hcut : boxedGraph.CutsTo (boxedGraph.cutParent "Window") := .parent "Window" .none
  obtain ⟨hboth, -, hrefs⟩ := h _ hcut
  obtain ⟨hbox, hstub⟩ := (hboth "Box").2 (by decide)
  have hwindow := hrefs boxedGraph.classes[1] (List.getElem_mem _) "Missing" (by decide)
  exact ⟨boxedGraph.distinct, hg₀, hcut, hbox, hstub, hwindow.resolve_left (by decide)⟩

end DocGraph.ClassGraph
