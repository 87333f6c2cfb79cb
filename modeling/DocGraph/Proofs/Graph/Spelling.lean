import DocGraph.Graph.Export
import DocGraph.Graph.Lint
import DocGraph.Graph.SelfReturns
import DocGraph.Proofs.Graph.Versions

/-!
# How references are spelt

A class may be referred to by its full name or by an alternate one. Writing all references of a graph by
full names gives its spelt out form. Graphs that differ in nothing but the names by which they refer to
their classes are spelt out alike, so that it is enough to compare a graph with its spelt out form.

The edges, the order in which classes are searched, the flaws and the export of a graph are those of its
spelt out form, and its passes commute with spelling out.
-/

namespace DocGraph

/-- A class that refers to other parents and mixins. -/
def DocClass.refer (c : DocClass) (parent : Option String) (mixins : List String)
    (h : parent ≠ some "") : DocClass :=
  { c with parent, mixins, parent_named := beq_eq_false_iff_ne.2 h }

namespace ClassGraph

variable {g : ClassGraph} {n : String}

/-- The name by which a class is extended: its full name, unless that is empty. -/
def parentName (g : ClassGraph) (n : String) : String :=
  if g.canonical n = "" then n else g.canonical n

lemma parentName_ne (g : ClassGraph) {parent : Option String} (h : parent ≠ some "") :
    parent.map g.parentName ≠ some "" := by
  rw [Ne, Option.map_eq_some_iff]
  rintro ⟨n, rfl, hn⟩
  rw [parentName] at hn
  split at hn
  · exact h (congrArg some hn)
  · next hc => exact hc hn

@[simp] lemma canonical_parentName (g : ClassGraph) (n : String) :
    g.canonical (g.parentName n) = g.canonical n := by
  rw [parentName]
  split
  · rfl
  · exact canonical_canonical g n

/-- A class with its references written by full names. -/
def spell (g : ClassGraph) (c : DocClass) : DocClass :=
  c.refer (c.parent.map g.parentName) (c.mixins.map g.canonical) (g.parentName_ne c.parent_ne)

@[simp] lemma name_spell (g : ClassGraph) (c : DocClass) : (g.spell c).name = c.name := rfl

/-- A graph with all references written by full names. -/
def spelledOut (g : ClassGraph) : ClassGraph := g.mapClasses g.spell fun _ => rfl

/-! ### Names and edges -/

lemma classes_spelledOut (g : ClassGraph) : g.spelledOut.classes = g.classes.map g.spell := rfl

lemma find?_spelledOut (g : ClassGraph) (n : String) :
    g.spelledOut.find? n = (g.find? n).map g.spell :=
  g.find?_mapClasses (f := g.spell) (fun _ => rfl) (fun _ => rfl) n

@[simp] lemma names_spelledOut (g : ClassGraph) : g.spelledOut.names = g.names := by
  simp [names, classes_spelledOut, Function.comp_def]

@[simp] lemma canonical_spelledOut (g : ClassGraph) : g.spelledOut.canonical = g.canonical :=
  funext fun n => g.canonical_mapClasses (f := g.spell) (fun _ => rfl) (fun _ => rfl) n

lemma sameOutline_spelledOut (g : ClassGraph) : g.SameOutline g.spelledOut := by
  apply SameOutline.mapClasses
  · intro c
    rfl
  · intro c
    simp [spell, DocClass.refer, Function.comp_def]
  · intro c
    simp [spell, DocClass.refer]
  · intro c
    rfl
  · intro c
    rfl

lemma searchOrder_spelledOut (g : ClassGraph) (n : String) :
    g.spelledOut.searchOrder n = (g.searchOrder n).map g.spell :=
  g.searchOrder_mapClasses (f := g.spell) (fun _ => rfl) (fun _ => rfl) g.sameOutline_spelledOut n

@[simp] lemma parentOf_spelledOut (g : ClassGraph) : g.spelledOut.parentOf = g.parentOf :=
  funext g.sameOutline_spelledOut.parentOf_eq

@[simp] lemma mixinsOf_spelledOut (g : ClassGraph) : g.spelledOut.mixinsOf = g.mixinsOf :=
  funext g.sameOutline_spelledOut.mixinsOf_eq

@[simp] lemma ancestorNames_spelledOut (g : ClassGraph) :
    g.spelledOut.ancestorNames = g.ancestorNames :=
  funext g.sameOutline_spelledOut.ancestorNames_eq

lemma subclasses_spelledOut (g : ClassGraph) (n : String) :
    g.spelledOut.subclasses n = (g.subclasses n).map g.spell := by
  rw [subclasses, classes_spelledOut, List.filter_map, parentOf_spelledOut, canonical_spelledOut]
  rfl

lemma mixedInto_spelledOut (g : ClassGraph) (n : String) :
    g.spelledOut.mixedInto n = (g.mixedInto n).map g.spell := by
  rw [mixedInto, classes_spelledOut, List.filter_map, mixinsOf_spelledOut, canonical_spelledOut]
  rfl

/-! ### Stubs -/

@[simp] lemma external_spelledOut (g : ClassGraph) : g.spelledOut.external = g.external := by
  rw [external, external, names_spelledOut]
  rfl

/-- A name of no class is written as it was. -/
lemma canonical_cases (g : ClassGraph) (n : String) :
    g.canonical n = n ∨ (g.find? n).isSome ∧ (g.find? (g.canonical n)).isSome := by
  cases h : g.find? n with
  | none => exact .inl (canonical_eq_self_of_find? h)
  | some c => exact .inr ⟨rfl, isSome_find?_iff.2 (.inl (canonical_mem_names h))⟩

/-- A change of what is filtered out anyway is not seen. -/
lemma filter_map_of_cases {α : Type} {f : α → α} {p : α → Bool}
    (h : ∀ a, f a = a ∨ p a = false ∧ p (f a) = false) (as : List α) :
    (as.map f).filter p = as.filter p := by
  induction as with
  | nil => rfl
  | cons a as ih =>
    rcases h a with ha | ⟨ha, hfa⟩
    · rw [List.map_cons, ha, List.filter_cons, List.filter_cons, ih]
    · rw [List.map_cons, List.filter_cons_of_neg (by simp [hfa]),
        List.filter_cons_of_neg (by simp [ha]), ih]

lemma parentName_cases (g : ClassGraph) (n : String) :
    g.parentName n = n ∨ (g.find? n).isSome ∧ (g.find? (g.parentName n)).isSome := by
  rw [parentName]
  split
  · exact .inl rfl
  · exact g.canonical_cases n

/-- References to classes aside, a spelt out class extends what it extended. -/
lemma filter_parent_spell {p : String → Bool} (h : ∀ n, (g.find? n).isSome → p n = false)
    (c : DocClass) : (g.spell c).parent.toList.filter p = c.parent.toList.filter p := by
  have hparent : (g.spell c).parent.toList = c.parent.toList.map g.parentName := by
    cases hc : c.parent <;> simp [spell, DocClass.refer, hc]
  rw [hparent]
  apply filter_map_of_cases
  exact fun n => (g.parentName_cases n).imp_right fun hn => ⟨h _ hn.1, h _ hn.2⟩

lemma filter_mixins_spell {p : String → Bool} (h : ∀ n, (g.find? n).isSome → p n = false)
    (c : DocClass) : (g.spell c).mixins.filter p = c.mixins.filter p :=
  filter_map_of_cases (fun n => (g.canonical_cases n).imp_right fun hn => ⟨h _ hn.1, h _ hn.2⟩) _

lemma isKnown_spelledOut (g : ClassGraph) (n : String) : g.spelledOut.isKnown n = g.isKnown n := by
  rw [isKnown, isKnown, find?_spelledOut, Option.isSome_map]
  rfl

@[simp] lemma unresolved_spelledOut (g : ClassGraph) : g.spelledOut.unresolved = g.unresolved := by
  have hknown : ∀ n, (g.find? n).isSome → (!g.isKnown n) = false := by
    intro n hn
    simp [isKnown, hn]
  rw [unresolved, unresolved, classes_spelledOut, List.flatMap_map, List.filter_flatMap,
    List.filter_flatMap]
  simp only [isKnown_spelledOut, DocClass.references, List.filter_append,
    filter_parent_spell hknown, filter_mixins_spell hknown]

/-! ### Members -/

lemma memberAt?_spelledOut (g : ClassGraph) (r : MemberRef) :
    g.spelledOut.memberAt? r = g.memberAt? r := by
  rw [memberAt?, memberAt?, member?, member?, find?_spelledOut, Option.bind_map]
  rfl

@[simp] lemma refs_spelledOut (g : ClassGraph) : g.spelledOut.refs = g.refs := by
  simp [refs, classes_spelledOut, List.flatMap_map, spell, DocClass.refer]

/-- Changes of classes that do not look at references commute with spelling out. -/
lemma spelledOut_mapClasses (g : ClassGraph) {f : DocClass → DocClass}
    (h : ∀ c, (f c).name = c.name) (halternate : ∀ c, (f c).alternateNames = c.alternateNames)
    (hrefer : ∀ c parent mixins hne, f (c.refer parent mixins hne) = (f c).refer parent mixins hne) :
    (g.mapClasses f h).spelledOut = g.spelledOut.mapClasses f h := by
  have hcanonical : (g.mapClasses f h).canonical = g.canonical :=
    funext fun n => g.canonical_mapClasses h halternate n
  have hspell : ∀ c, (g.mapClasses f h).spell (f c) = f (g.spell c) := by
    intro c
    have hself := hrefer c c.parent c.mixins c.parent_ne
    change f c = _ at hself
    have hparent : (g.mapClasses f h).parentName = g.parentName := by
      funext n
      rw [parentName, parentName, hcanonical]
    simp only [spell, hcanonical, hparent, hrefer]
    rw [hself]
    rfl
  have hclasses : (g.classes.map f).map (g.mapClasses f h).spell = (g.classes.map g.spell).map f := by
    rw [List.map_map, List.map_map]
    exact List.map_congr_left fun c _ => hspell c
  simp only [spelledOut, mapClasses, mk.injEq, and_true]
  exact hclasses

lemma spelledOut_modifyMember (g : ClassGraph) (r : MemberRef) {f : Member → Member}
    (hf : ∀ m, (f m).ref = m.ref) :
    (g.modifyMember r f hf).spelledOut = g.spelledOut.modifyMember r f hf :=
  g.spelledOut_mapClasses _ (fun _ => rfl) fun _ _ _ _ => rfl

/-! ### Passes -/

/-- The same edges are cut in a graph and in its spelt out form. -/
lemma cutCycles_spelledOut (g : ClassGraph) :
    g.spelledOut.cutCycles = (g.cutCycles.1.spelledOut, g.cutCycles.2) := by
  obtain ⟨hsame, hjournal⟩ := g.sameOutline_spelledOut.cutCycles
  have hparents := hsame.cutParents
  have hmixins := hsame.cutMixins
  obtain ⟨_, _, hg⟩ := g.exists_cutCycles_eq
  obtain ⟨_, _, hg'⟩ := g.spelledOut.exists_cutCycles_eq
  rw [hg, hg'] at hparents hmixins
  refine Prod.ext ?_ hjournal
  rw [hg, hg']
  obtain rfl := hparents
  obtain rfl := hmixins
  rfl

lemma inheritedSince_spelledOut (g : ClassGraph) (r : MemberRef) :
    g.spelledOut.inheritedSince r = g.inheritedSince r := by
  rw [inheritedSince, searchOrder_spelledOut, List.findSome?_map]
  rfl

lemma settleMember_spelledOut (g : ClassGraph) (o : VersionOptions) :
    g.spelledOut.settleMember o = g.settleMember o := by
  funext clsSince m
  simp only [settleMember, writtenSince, inheritedSince_spelledOut]

lemma settleClass_spelledOut (g : ClassGraph) (o : VersionOptions) :
    g.spelledOut.settleClass o = g.settleClass o := by
  funext c
  simp only [settleClass, settleMember_spelledOut]

lemma withVersions_spelledOut (g : ClassGraph) (o : VersionOptions) :
    g.spelledOut.withVersions o = (g.withVersions o).spelledOut := by
  have hsettle := g.spelledOut_mapClasses (f := g.settleClass o) (fun _ => rfl) (fun _ => rfl)
    fun _ _ _ _ => rfl
  rw [withVersions_eq]
  simp only [settleClass_spelledOut]
  exact hsettle.symm

lemma settleReturns_spelledOut (g : ClassGraph) :
    g.spelledOut.settleReturns = g.settleReturns.spelledOut := by
  symm
  apply g.spelledOut_mapClasses
  · intro c
    rfl
  · intro c parent mixins hne
    rfl

lemma usesDefault_spelledOut (g : ClassGraph) : g.spelledOut.usesDefault = g.usesDefault := by
  have hwritten : g.spelledOut.writtenSince = g.writtenSince := by
    funext m
    rw [writtenSince, writtenSince, inheritedSince_spelledOut]
  rw [usesDefault, classes_spelledOut, List.any_map, hwritten]
  rfl

lemma settleVersions_spelledOut (g : ClassGraph) (o : VersionOptions) :
    g.spelledOut.settleVersions o = spelledOut <$> g.settleVersions o := by
  rw [settleVersions, settleVersions, usesDefault_spelledOut, withVersions_spelledOut]
  split
  · cases o.default.equals o.newSince with
    | error e => rfl
    | ok asked => rfl
  · rfl

/-! ### Flaws -/

lemma not_contains_unresolved (h : (g.find? n).isSome) : g.unresolved.contains n = false := by
  rw [Bool.eq_false_iff, Ne, List.contains_iff_mem, mem_unresolved]
  rintro ⟨-, hnone, -⟩
  simp [hnone] at h

lemma lintReferences_spell (g : ClassGraph) (c : DocClass) :
    Lint.references g.unresolved (g.spell c) = Lint.references g.unresolved c := by
  have hknown : ∀ n, (g.find? n).isSome → g.unresolved.contains n = false :=
    fun n => not_contains_unresolved
  simp only [Lint.references, Lint.namedReferences, List.filter_append, List.filter_map,
    Function.comp_def, filter_parent_spell hknown, filter_mixins_spell hknown]
  rfl

lemma shadowed_spell (g : ClassGraph) (c : DocClass) (left : Lint.Reported) (fs : List Fragment) :
    Lint.shadowed (g.spell c) left fs = Lint.shadowed c left fs := by
  induction fs generalizing left with
  | nil => rfl
  | cons f fs ih =>
    simp only [Lint.shadowed, ih]
    rfl

lemma params_spell (g : ClassGraph) (c : DocClass) (o : LintOptions) (m : Member)
    (seen : List String) (optional : Bool) (ps : List Param) :
    Lint.params o (g.spell c) m seen optional ps = Lint.params o c m seen optional ps := by
  induction ps generalizing seen optional with
  | nil => rfl
  | cons p ps ih =>
    simp only [Lint.params, ih]
    rfl

lemma lintCls_spell (g : ClassGraph) (c : DocClass) (o : LintOptions) (left : Lint.Reported) :
    Lint.cls o g.unresolved (g.spell c) left = Lint.cls o g.unresolved c left := by
  have hmember : Lint.member o (g.spell c) = Lint.member o c := by
    funext m
    rw [Lint.member, Lint.member, params_spell]
    rfl
  rw [Lint.cls, Lint.cls, lintReferences_spell, shadowed_spell, hmember]
  rfl

lemma lint_spelledOut (g : ClassGraph) (o : LintOptions) (earlier : List Diagnostic) :
    g.spelledOut.lint o earlier = g.lint o earlier := by
  rw [lint, lint, unresolved_spelledOut, classes_spelledOut]
  generalize Lint.reported earlier = left
  induction g.classes generalizing left with
  | nil => rfl
  | cons c cs ih => simp only [List.map_cons, Lint.classes, lintCls_spell, ih]

/-! ### Exports -/

lemma entry_spell (g : ClassGraph) (c : DocClass) : g.spelledOut.entry (g.spell c) = g.entry c := by
  simp only [entry, parentOf_spelledOut, ancestorNames_spelledOut, mixinsOf_spelledOut,
    subclasses_spelledOut, mixedInto_spelledOut, List.map_map]
  rfl

lemma sortedClasses_spelledOut (g : ClassGraph) :
    g.spelledOut.sortedClasses = g.sortedClasses.map g.spell := by
  rw [sortedClasses, sortedClasses, List.map_mergeSort]
  · rfl
  · intro c _ d _
    rfl

lemma plainData_spelledOut (g : ClassGraph) (diagnostics : List Diagnostic) (withTree : Bool) :
    g.spelledOut.plainData diagnostics withTree = g.plainData diagnostics withTree := by
  have hclasses : g.spelledOut.sortedClasses.map g.spelledOut.entry = g.sortedClasses.map g.entry := by
    rw [sortedClasses_spelledOut, List.map_map]
    exact List.map_congr_left fun c _ => g.entry_spell c
  have htree : g.spelledOut.packageTree = g.packageTree := by
    rw [packageTree, packageTree, sortedClasses_spelledOut, List.map_map]
    rfl
  simp only [plainData, hclasses, htree, external_spelledOut, unresolved_spelledOut]
  rfl

end ClassGraph

end DocGraph
