import DocGraph.Proofs.Batch.Resolved
import DocGraph.Proofs.Catalog.Placement
import DocGraph.Proofs.Graph.Naming
import Mathlib.Tactic.Common

/-!
# Graphs of members in their place

Every pass leaves a member at its own key in the table of the class that owns it, and a class at its own
name. So the classes of a prepared catalog have different names, there is always a graph of them, and the
reference of a member leads to nothing but the member.
-/

namespace DocGraph

open Catalog

namespace Catalog

variable {c : Catalog}

lemma IsNamed.map_name (h : c.IsNamed) : c.values.map Record.name = c.keys := by
  rw [OrderedMap.values, OrderedMap.keys, List.map_map]
  refine List.map_congr_left fun e he => ?_
  exact h e.1 e.2 (OrderedMap.get?_eq_some_iff.2 he)

/-- There is a graph of every catalog whose records are at their names. -/
lemma IsNamed.exists_graphOf (h : c.IsNamed) (external : List Scalar) :
    ∃ g, Batch.graphOf c external = .ok g := by
  have hd : ((c.values.map DocClass.ofRecord).map DocClass.name).Nodup := by
    rw [List.map_map]
    change (c.values.map Record.name).Nodup
    rw [h.map_name]
    exact c.distinct
  obtain ⟨g, hg⟩ : ∃ g, ClassGraph.ofClasses (c.values.map DocClass.ofRecord)
      (external.filterMap Scalar.text?) (external.filter fun s => s.text?.isNone) = .ok g :=
    ⟨_, ClassGraph.ofClasses_eq_ok hd⟩
  refine ⟨g, ?_⟩
  change (ClassGraph.ofClasses _ _ _).mapError Failure.duplicateClass = .ok g
  rw [hg]
  rfl

end Catalog

/-! ### Prepared catalogs -/

namespace Batch

variable {c : Catalog} {external : List Scalar} {g : ClassGraph} {cls : DocClass} {key : MemberKey}
  {m : Member}

/-- A member of a built graph is that of a fragment that stands at the same place. -/
lemma exists_fragment_inPlace (h : c.Satisfies Placing.inPlace) (hg : graphOf c external = .ok g)
    (hcls : cls ∈ g.classes) (hm : cls.member? key = some m) :
    m.ref = ⟨cls.name, key⟩ ∧ ∃ f, c.member? ⟨cls.name, key⟩ = some f ∧
      f.owner = some cls.name ∧ f.key? = some key ∧ m = .ofFragment ⟨cls.name, key⟩ f := by
  have href : m.ref = ⟨cls.name, key⟩ := ClassGraph.ref_of_member? hm
  obtain ⟨f, hf, hmade⟩ := exists_fragment h.named hg (ClassGraph.hasMember_of_member? hcls hm)
  rw [href] at hf hmade
  obtain ⟨howner, hkey⟩ := h.of_member? hf
  exact ⟨href, f, hf, howner, hkey, hmade⟩

/-- Rules leave members in their place. -/
lemma inPlace_applyRules {settings : Value} {e : Enriched} (h : c.Satisfies Placing.inPlace)
    (he : applyRules c FrameworkRule.standard settings = .ok e) : e.classes.Satisfies Placing.inPlace := by
  obtain ⟨options, -, hclasses⟩ := applyRules_standard he
  rw [hclasses]
  split
  · exact h.addOptions Placing.isKept_inPlace
  · exact h

/-- Members stand at their keys in the tables of their owners, and classes at their names, after everything
is gathered and after each of the passes. What a preparation gives therefore always has a graph, whose
members are those of the fragments at their places, each with a reference of its own that leads to it. -/
theorem passes_keep_members_in_place (policy : MergePolicy) (files : List ParsedFile) (unwanted : Bool)
    (settings : Value) :
    let a := Aggregation.ofFiles policy files
    let kept := dropIgnored a.classes
    let hoisted := hoistGlobals kept.classes a.orphans unwanted
    let supplied := addAccessors hoisted.classes
    a.classes.Satisfies Placing.inPlace ∧ kept.classes.Satisfies Placing.inPlace ∧
      hoisted.classes.Satisfies Placing.inPlace ∧ supplied.classes.Satisfies Placing.inPlace ∧
      ∀ amended, applyRules supplied.classes FrameworkRule.standard settings = .ok amended →
        let expanded := expandEnumerations amended.classes
        let folded := applyOverrides expanded.classes
        amended.classes.Satisfies Placing.inPlace ∧ expanded.classes.Satisfies Placing.inPlace ∧
          folded.classes.Satisfies Placing.inPlace ∧
          (∀ s : Settings, s.ignoresGlobals = .ok unwanted → s.frameworkRules = .ok settings → ∀ j, ∃ j',
            (prepare s a).Yields j ⟨folded.classes, kept.names ++ folded.names⟩ j') ∧
          ∀ external, ∃ g, graphOf folded.classes external = .ok g ∧ g.refs.Nodup ∧
            ∀ cls ∈ g.classes, ∀ key m, cls.member? key = some m →
              m.owner = cls.name ∧ key = ⟨m.kind, m.name⟩ ∧
              g.member? m.owner ⟨m.kind, m.name⟩ = some m ∧
              ∃ f, folded.classes.member? ⟨cls.name, key⟩ = some f ∧ f.owner = some cls.name ∧
                f.key? = some key ∧ m = .ofFragment ⟨cls.name, key⟩ f := by
  intro a kept hoisted supplied
  have hkeeps := Placing.isKept_inPlace
  have ha : a.classes.Satisfies Placing.inPlace :=
    satisfies_gathered (Aggregation.gathers_ofFiles policy files)
  have hkept : kept.classes.Satisfies Placing.inPlace := ha.dropIgnored
  have hhoisted : hoisted.classes.Satisfies Placing.inPlace :=
    hkept.hoistGlobals (fun _ => inPlace_of_mem_globalMembers) unwanted
  have hsupplied : supplied.classes.Satisfies Placing.inPlace := hhoisted.addAccessors hkeeps
  refine ⟨ha, hkept, hhoisted, hsupplied, ?_⟩
  intro amended hrules expanded folded
  have hamended := inPlace_applyRules hsupplied hrules
  have hexpanded : expanded.classes.Satisfies Placing.inPlace := hamended.expandEnumerations hkeeps
  have hfolded : folded.classes.Satisfies Placing.inPlace := hexpanded.applyOverrides hkeeps
  refine ⟨hamended, hexpanded, hfolded, fun s hs hs' j => ?_, fun external => ?_⟩
  · simp only [prepare, Run.yields_bind, yields_pass, hs, hs', bind_eq_ok, pure_eq_ok,
      Run.yields_pure, Except.ok.injEq]
    exact ⟨_, kept, _, ⟨rfl, rfl⟩, hoisted, _, ⟨⟨unwanted, rfl, rfl⟩, rfl⟩, supplied, _, ⟨rfl, rfl⟩,
      amended, _, ⟨⟨settings, rfl, hrules⟩, rfl⟩, expanded, _, ⟨rfl, rfl⟩, folded, _, ⟨rfl, rfl⟩, rfl, rfl⟩
  · obtain ⟨g, hg⟩ := hfolded.named.exists_graphOf external
    refine ⟨g, hg, g.nodup_refs, fun cls hcls key m hm => ?_⟩
    obtain ⟨href, hfragment⟩ := exists_fragment_inPlace hfolded hg hcls hm
    have howner : m.owner = cls.name := congrArg MemberRef.cls href
    have hkey : m.ref.key = key := congrArg MemberRef.key href
    exact ⟨howner, hkey.symm, ClassGraph.hasMember_of_member? hcls hm, hfragment⟩

/-- A class under two names, with a property that asks for accessors, and an override of it. -/
def panelFile : ParsedFile := ⟨"panel.yml", [
  { subject := .cls, name := "Panel", alternateNames := ["Box"] },
  { subject := .member .cfg, name := "width", owner := some "Panel", accessor := true },
  { subject := .cls, name := "Box.Patch", overrides := some "Panel" },
  { subject := .member .method, name := "draw", owner := some "Box.Patch" },
  { subject := .member .method, name := "log" }]⟩

/-- The catalog of the file before rules are applied to it. -/
def panelCatalog : Catalog :=
  let a := Aggregation.ofFiles .first [panelFile]
  (addAccessors (hoistGlobals (dropIgnored a.classes).classes a.orphans false).classes).classes

/-- The graph of the file. -/
def panelGraph : Option ClassGraph := do
  let amended ← (applyRules panelCatalog FrameworkRule.standard .null).toOption
  let folded := applyOverrides (expandEnumerations amended.classes).classes
  (graphOf folded.classes []).toOption

theorem passes_keep_members_in_place_panel :
    ∃ amended g cls m, applyRules panelCatalog FrameworkRule.standard .null = .ok amended ∧
      graphOf (applyOverrides (expandEnumerations amended.classes).classes).classes [] = .ok g ∧
      cls ∈ g.classes ∧ cls.name = "Panel" ∧ cls.member? ⟨.method, "draw"⟩ = some m ∧
      m.owner = "Panel" ∧ g.member? m.owner ⟨m.kind, m.name⟩ = some m := by
  have hdraw : ((panelGraph.bind (·.find? "Box")).map fun cls =>
      (cls.name, (cls.member? ⟨.method, "draw"⟩).isSome)) = some ("Panel", true) := by decide +kernel
  rcases hrules : applyRules panelCatalog FrameworkRule.standard .null with e | amended
  · simp [panelGraph, hrules, Except.toOption] at hdraw
  · obtain ⟨-, -, -, -, hpasses⟩ := passes_keep_members_in_place .first [panelFile] false .null
    obtain ⟨-, -, -, -, hgraph⟩ := hpasses amended hrules
    obtain ⟨g, hg, -, hmembers⟩ := hgraph []
    have hpanel : panelGraph = some g := by
      simp [panelGraph, hrules, hg, Except.toOption]
    rw [hpanel, Option.bind_some, Option.map_eq_some_iff] at hdraw
    obtain ⟨cls, hcls, hsome⟩ := hdraw
    obtain ⟨hname, hsome⟩ := Prod.mk.inj hsome
    obtain ⟨m, hm⟩ := Option.isSome_iff_exists.1 hsome
    have hmem := ClassGraph.mem_classes_of_find? hcls
    obtain ⟨howner, -, hfound, -⟩ := hmembers cls hmem _ m hm
    exact ⟨amended, g, cls, m, rfl, hg, hmem, hname, hm, howner.trans hname, hfound⟩

end Batch

end DocGraph
