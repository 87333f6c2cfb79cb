import DocGraph.Proofs.Batch.Course
import DocGraph.Proofs.Batch.Parsing
import DocGraph.Proofs.Inheritance.Origin
import DocGraph.Proofs.Inheritance.Spelling

/-!
# Alternate names

References may be rewritten from alternate names to full ones, some or all of them. The graphs before and
after are spelt out alike, so that their edges are the same and they are resolved to the same result, with
the same reports.

A parent without a name is no parent. So a reference to a class whose full name is empty is lost if it is
rewritten as a parent, and a class must keep the parent that it has.
-/

namespace DocGraph

/-- A class without its references. -/
def DocClass.bare (c : DocClass) : DocClass := c.refer none [] (by decide)

namespace ClassGraph

variable {g g' r r' : ClassGraph} {c c' : DocClass}

/-! ### Rewriting references -/

/-- A name as that of a parent. The empty name is that of none. -/
def parentNamed (n : String) : Option String := if n.isEmpty then none else some n

/-- A class refers to the classes of a graph as another one does, by the same names or by full ones. -/
structure Respells (g : ClassGraph) (c c' : DocClass) : Prop where
  eq_refer : c' = c.refer c'.parent c'.mixins c'.parent_ne
  parent : c'.parent = c.parent ∨ c'.parent = c.parent.bind fun n => parentNamed (g.canonical n)
  mixins : List.Forall₂ (fun n n' => n' = n ∨ n' = g.canonical n) c.mixins c'.mixins

/-- One graph is another one in which references have been rewritten to full names. -/
structure Respelling (g g' : ClassGraph) : Prop where
  classes : List.Forall₂ g.Respells g.classes g'.classes
  registered : g'.registered = g.registered
  registeredOther : g'.registeredOther = g.registeredOther
  cutParents : g'.cutParents = g.cutParents
  cutMixins : g'.cutMixins = g.cutMixins

lemma Respells.map_mixins (h : g.Respells c c') :
    c'.mixins.map g.canonical = c.mixins.map g.canonical := by
  have hmixins := h.mixins
  generalize c.mixins = ns, c'.mixins = ns' at hmixins
  induction hmixins with
  | nil => rfl
  | cons hn _ ih =>
    rcases hn with rfl | rfl
    · rw [List.map_cons, List.map_cons, ih]
    · rw [List.map_cons, List.map_cons, canonical_canonical, ih]

lemma Respells.map_parent (h : g.Respells c c') (hkept : c'.parent.isSome = c.parent.isSome) :
    c'.parent.map g.parentName = c.parent.map g.parentName := by
  rcases h.parent with hp | hp
  · rw [hp]
  · rw [hp] at hkept ⊢
    cases hc : c.parent with
    | none => rfl
    | some n =>
      rw [hc, Option.bind_some, parentNamed] at hkept
      split at hkept
      · simp at hkept
      · next hn =>
        have hne : g.canonical n ≠ "" := by simpa using hn
        rw [Option.bind_some, parentNamed, if_neg hn]
        simp [parentName, hne]

lemma Respells.bare_eq (h : g.Respells c c') : c'.bare = c.bare :=
  (congrArg DocClass.bare h.eq_refer).trans rfl

/-- Rewriting references changes nothing in the spelt out form, as long as no parent is lost. -/
lemma Respells.spell_eq (h : g.Respells c c') (hkept : c'.parent.isSome = c.parent.isSome) :
    g.spell c' = g.spell c := by
  simp only [spell, h.map_mixins, h.map_parent hkept]
  have hrefer := g.parentName_ne c.parent_ne
  exact congrArg (fun b => b.refer (c.parent.map g.parentName) (c.mixins.map g.canonical) hrefer)
    h.bare_eq

namespace Respelling

lemma map_bare (h : g.Respelling g') :
    g'.classes.map DocClass.bare = g.classes.map DocClass.bare := by
  have hall := h.classes
  generalize g.classes = cs, g'.classes = cs' at hall
  induction hall with
  | nil => rfl
  | cons hc _ ih =>
    rw [List.map_cons, List.map_cons, ih, hc.bare_eq]

/-- The classes have their names and alternate names still. -/
lemma canonical_eq (h : g.Respelling g') : g'.canonical = g.canonical := by
  have hfind : ∀ (g : ClassGraph) (n : String), (g.find? n).map DocClass.bare =
      ((g.classes.map DocClass.bare).find? (·.name = n)).or
        ((g.classes.map DocClass.bare).find? (n ∈ ·.alternateNames)) := by
    intro g n
    rw [find?, List.find?_map, List.find?_map, Option.map_or]
    rfl
  have hcanonical : ∀ (g : ClassGraph) (n : String),
      g.canonical n = (((g.find? n).map DocClass.bare).map DocClass.name).getD n := by
    intro g n
    rw [canonical, Option.map_map]
    rfl
  funext n
  rw [hcanonical, hcanonical, hfind, hfind, h.map_bare]

/-- Both graphs are spelt out alike. -/
lemma spelledOut_eq (h : g.Respelling g')
    (hkept : g'.classes.map (·.parent.isSome) = g.classes.map (·.parent.isSome)) :
    g'.spelledOut = g.spelledOut := by
  have hspell : g'.spell = g.spell := by
    have hname : g'.parentName = g.parentName := by
      funext n
      rw [parentName, parentName, h.canonical_eq]
    funext c
    simp only [spell, h.canonical_eq, hname]
  have hclasses : g'.classes.map g.spell = g.classes.map g.spell := by
    have hall := h.classes
    generalize g.classes = cs, g'.classes = cs' at hall hkept
    induction hall with
    | nil => rfl
    | cons hc _ ih =>
      rw [List.map_cons, List.map_cons, List.cons.injEq] at hkept
      rw [List.map_cons, List.map_cons, hc.spell_eq hkept.1, ih hkept.2]
  simp only [spelledOut, mapClasses, hspell, hclasses, h.registered, h.registeredOther, h.cutParents,
    h.cutMixins]

end Respelling

/-! ### The same edges and the same results -/

/-- The classes of two graphs are related alike. -/
structure SameRelations (g g' : ClassGraph) : Prop where
  parentOf : g'.parentOf = g.parentOf
  ancestorNames : g'.ancestorNames = g.ancestorNames
  mixinsOf : g'.mixinsOf = g.mixinsOf
  subclasses : ∀ n, (g'.subclasses n).map DocClass.name = (g.subclasses n).map DocClass.name
  mixedInto : ∀ n, (g'.mixedInto n).map DocClass.name = (g.mixedInto n).map DocClass.name
  searchOrder : ∀ n, (g'.searchOrder n).map DocClass.name = (g.searchOrder n).map DocClass.name

/-- Two resolved graphs differ at most in the names by which classes refer to each other. -/
structure SameResult (r r' : ClassGraph) : Prop where
  cutParents : r'.cutParents = r.cutParents
  cutMixins : r'.cutMixins = r.cutMixins
  classes : r'.classes.map DocClass.bare = r.classes.map DocClass.bare
  plainData : r'.plainData = r.plainData

lemma SameRelations.of_spelledOut (h : g'.spelledOut = g.spelledOut) : g.SameRelations g' := by
  have hnames : ∀ (g : ClassGraph) (cs : List DocClass),
      cs.map DocClass.name = (cs.map g.spell).map DocClass.name := by
    intro g cs
    rw [List.map_map]
    rfl
  refine ⟨?_, ?_, ?_, fun n => ?_, fun n => ?_, fun n => ?_⟩
  · rw [← parentOf_spelledOut, h, parentOf_spelledOut]
  · rw [← ancestorNames_spelledOut, h, ancestorNames_spelledOut]
  · rw [← mixinsOf_spelledOut, h, mixinsOf_spelledOut]
  · rw [hnames g', ← subclasses_spelledOut, h, subclasses_spelledOut, ← hnames]
  · rw [hnames g', ← mixedInto_spelledOut, h, mixedInto_spelledOut, ← hnames]
  · rw [hnames g', ← searchOrder_spelledOut, h, searchOrder_spelledOut, ← hnames]

lemma SameResult.of_spelledOut (h : r'.spelledOut = r.spelledOut) : r.SameResult r' := by
  refine ⟨?_, ?_, ?_, ?_⟩
  · exact congrArg (fun g => g.cutParents) h
  · exact congrArg (fun g => g.cutMixins) h
  · have hclasses := congrArg (fun g => g.classes.map DocClass.bare) h
    simp only [classes_spelledOut, List.map_map] at hclasses
    exact hclasses
  · funext ds tree
    rw [← plainData_spelledOut, h, plainData_spelledOut]

end ClassGraph

/-! ### Resolving -/

namespace Run

variable {α β : Type}

lemma finishAfter_map (j : Journal) (x : Run α) (f : α → β) :
    (f <$> x).finishAfter j = (x.finishAfter j).map (Except.map f) id := by
  rw [map_eq_pure_bind, finishAfter_bind]
  rcases x.finishAfter j with ⟨e | a, j'⟩ <;> rfl

lemma ofFault_map (r : Except Fault α) (f : α → β) : ofFault (f <$> r) = f <$> ofFault r := by
  cases r <;> rfl

end Run

namespace Batch

open ClassGraph

variable {g g' : ClassGraph}

lemma resolve_spelledOut (s : Settings) (g : ClassGraph) :
    resolve s g.spelledOut = spelledOut <$> resolve s g := by
  simp only [resolve, cutCycles_spelledOut, inheritDocs_spelledOut, settleVersions_spelledOut,
    Run.ofFault_map, map_bind, map_pure, bind_map_left, settleReturns_spelledOut, lint_spelledOut, reportFlaws]

/-- Graphs that differ in nothing but the names by which they refer to classes are related alike, and they
are resolved alike: with the same failure, or to the same result, and with the same reports. -/
theorem resolve_respelled (h : g.Respelling g')
    (hkept : g'.classes.map (·.parent.isSome) = g.classes.map (·.parent.isSome)) :
    g.SameRelations g' ∧ ∀ s j,
      (∃ e j', (resolve s g).Fails j e j' ∧ (resolve s g').Fails j e j') ∨
        ∃ r r' j', (resolve s g).Yields j r j' ∧ (resolve s g').Yields j r' j' ∧ r.SameResult r' := by
  have hspelt := h.spelledOut_eq hkept
  refine ⟨.of_spelledOut hspelt, fun s j => ?_⟩
  have hends := congrArg (Run.finishAfter j ∘ resolve s) hspelt
  simp only [Function.comp_apply, resolve_spelledOut, Run.finishAfter_map] at hends
  rcases hr : (resolve s g).finishAfter j with ⟨e | r, j'⟩ <;>
    rcases hr' : (resolve s g').finishAfter j with ⟨e' | r', j''⟩ <;>
    rw [hr, hr'] at hends <;>
    simp [Except.map] at hends
  · obtain ⟨rfl, rfl⟩ := hends
    exact .inl ⟨e', j'', hr, hr'⟩
  · obtain ⟨hresult, rfl⟩ := hends
    exact .inr ⟨r, r', j'', hr, hr', .of_spelledOut hresult⟩

/-- A class without a name, and one that extends it by its alternate name. -/
def namelessGraph : ClassGraph where
  classes := [{ name := "", alternateNames := ["Base"] }, { name := "Grid", parent := some "Base" }]
  distinct := by decide

/-- By its full name, a class without a name is not extended. -/
theorem not_resolve_respelled :
    ¬∀ g g' : ClassGraph, g.Respelling g' → g.SameRelations g' := by
  intro h
  let g' := namelessGraph.mapClasses DocClass.bare fun _ => rfl
  have hrespelling : namelessGraph.Respelling g' := by
    refine ⟨.cons ⟨rfl, .inl rfl, .nil⟩ (.cons ⟨rfl, .inr ?_, .nil⟩ .nil), rfl, rfl, rfl, rfl⟩
    decide
  have hparent := congrFun (h namelessGraph g' hrespelling).parentOf "Grid"
  revert hparent
  decide

/-- Nothing is cut after the search for cycles. -/
lemma cuts_of_resolve {s : Settings} {g r : ClassGraph} {j j' : Journal}
    (h : (resolve s g).Yields j r j') :
    r.cutParents = g.cutCycles.1.cutParents ∧ r.cutMixins = g.cutCycles.1.cutMixins := by
  obtain ⟨⟨o, rfl⟩, -⟩ := resolve_yields h
  obtain ⟨f, hf, hshape⟩ :=
    ((Inheriting.run_settleAll g.cutCycles.1).sound (Inheriting.sound_start g.cutCycles.1)).shape
  have hinherit : g.cutCycles.1.inheritDocs.1 = (Inheriting.settleAll g.cutCycles.1).graph := rfl
  rw [hinherit, hshape]
  exact ⟨rfl, rfl⟩

/-- Parents and mixins go round through alternate names, and a mixin is declared by both of its names. -/
def aliasedGraph : ClassGraph where
  classes := [
    { name := "Grid", parent := some "Rows", mixins := ["Look", "Skin"] },
    { name := "Table", parent := some "Grid", alternateNames := ["Rows"] },
    { name := "Skin", mixins := ["Grid"], alternateNames := ["Look"] }]
  distinct := by decide

/-- The same graph with the references of its first class rewritten. -/
def rewrittenGraph : ClassGraph where
  classes :=
    { name := "Grid", parent := some "Table", mixins := ["Skin", "Skin"] } :: aliasedGraph.classes.tail
  distinct := by decide

theorem resolve_respelled_aliased :
    aliasedGraph.Respelling rewrittenGraph ∧
      rewrittenGraph.classes.map (·.parent.isSome) = aliasedGraph.classes.map (·.parent.isSome) ∧
      aliasedGraph.SameRelations rewrittenGraph ∧
      ∃ r r' j, (resolve .empty aliasedGraph).Yields [] r j ∧
        (resolve .empty rewrittenGraph).Yields [] r' j ∧ r.SameResult r' ∧
        r.cutParents = ["Table"] ∧ r.cutMixins = [("Skin", "Grid")] := by
  have hrespelling : aliasedGraph.Respelling rewrittenGraph := by
    refine ⟨.cons ⟨rfl, .inr ?_, ?_⟩ (.cons ⟨rfl, .inl rfl, ?_⟩ (.cons ⟨rfl, .inl rfl, ?_⟩ .nil)),
      rfl, rfl, rfl, rfl⟩
    · decide
    · exact .cons (.inr (by decide)) (.cons (.inl rfl) .nil)
    · exact .nil
    · exact .cons (.inl rfl) .nil
  have hkept : rewrittenGraph.classes.map (·.parent.isSome) =
      aliasedGraph.classes.map (·.parent.isSome) := rfl
  obtain ⟨hrelations, hends⟩ := resolve_respelled hrespelling hkept
  have hends' : ((resolve .empty aliasedGraph).finishAfter []).1.toOption.isSome = true := by
    decide +kernel
  -- the search for cycles is no structural recursion, and `decide` does not get through it
  have hcut : (aliasedGraph.cutCycles.1.cutParents, aliasedGraph.cutCycles.1.cutMixins) =
      (["Table"], [("Skin", "Grid")]) := by cbv
  obtain ⟨hparents, hmixins⟩ := Prod.mk.inj hcut
  rcases hends .empty [] with ⟨e, j, hfails, -⟩ | ⟨r, r', j, hr, hr', hresult⟩
  · rw [hfails] at hends'
    simp [Except.toOption] at hends'
  · obtain ⟨hparents', hmixins'⟩ := cuts_of_resolve hr
    exact ⟨hrespelling, hkept, hrelations, r, r', j, hr, hr', hresult, hparents'.trans hparents,
      hmixins'.trans hmixins⟩

end Batch

end DocGraph
