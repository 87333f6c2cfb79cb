import DocGraph.Proofs.Graph.MixinCut
import DocGraph.Proofs.Graph.Naming
import DocGraph.Proofs.Graph.ParentCut
import Mathlib.Data.List.Find
import Mathlib.Data.List.Permutation
import Mathlib.Data.List.Sort

/-!
# The outline of a graph

Cutting cycles looks at the names of classes, at their parents and mixins under full names, and at the
places to be reported. Graphs that agree in these have the same edges cut, with the same reports.

Main statement: the order in which classes are given has no influence on what is cut and reported, as
long as no two of them claim the same alternate name.
-/

namespace DocGraph.ClassGraph

variable {g g' : ClassGraph} {n m : String} {s s' : Cutting}

/-- What cutting looks at of a class. -/
structure Outline where
  name : String
  parent : Option String
  mixins : List String
  file : String
  line : Int

/-- The outline of the class with the given name. -/
def outline? (g : ClassGraph) (n : String) : Option Outline :=
  (g.find? n).map fun c =>
    ⟨c.name, c.parent.map g.canonical, c.mixins.map g.canonical, c.file, c.line⟩

lemma mem_names_iff_outline : n ∈ g.names ↔ (g.outline? n).map Outline.name = some n := by
  simp only [outline?, Option.map_map, Option.map_eq_some_iff, Function.comp_def]
  constructor
  · exact exists_find?_of_mem_names
  · rintro ⟨c, hc, rfl⟩
    exact mem_names_of_find? hc

lemma parentOf_eq_outline (g : ClassGraph) (n : String) :
    g.parentOf n =
      (g.outline? n).bind fun o => if o.name ∈ g.cutParents then none else o.parent := by
  cases h : g.find? n with
  | none => simp [parentOf_eq_none h, outline?, h]
  | some c => simp [parentOf_eq h, outline?, h]

lemma mixinsOf_eq_outline (g : ClassGraph) (n : String) :
    g.mixinsOf n = (g.outline? n).elim [] fun o =>
      appendNew [] (o.mixins.filter fun m => (o.name, m) ∉ g.cutMixins) := by
  cases h : g.find? n with
  | none => simp [mixinsOf_eq_nil h, outline?, h]
  | some c => simp [mixinsOf_eq h, outline?, h]

lemma cycleDiagnostic_eq_outline (g : ClassGraph) (n : String) (kind : EdgeKind)
    (cycle : List String) :
    g.cycleDiagnostic n kind cycle =
      { g.cycleDiagnostic n kind cycle with
        file := (g.outline? n).elim "" Outline.file
        line := (g.outline? n).elim 0 Outline.line } := by
  cases h : g.find? n <;> simp [cycleDiagnostic, outline?, h]

/-- Two graphs have the same outlines and the same cuts. -/
structure SameOutline (g g' : ClassGraph) : Prop where
  outline : ∀ n, g'.outline? n = g.outline? n
  cutParents : g'.cutParents = g.cutParents
  cutMixins : g'.cutMixins = g.cutMixins

namespace SameOutline

lemma mem_names (h : g.SameOutline g') : n ∈ g'.names ↔ n ∈ g.names := by
  rw [mem_names_iff_outline, mem_names_iff_outline, h.outline]

lemma sortedNames_eq (h : g.SameOutline g') : g'.sortedNames = g.sortedNames := by
  apply g'.pairwise_sortedNames.eq_of_mem_iff g.pairwise_sortedNames
  intro n
  rw [mem_sortedNames, mem_sortedNames, h.mem_names]

lemma parentOf_eq (h : g.SameOutline g') (n : String) : g'.parentOf n = g.parentOf n := by
  rw [parentOf_eq_outline, parentOf_eq_outline, h.outline, h.cutParents]

lemma mixinsOf_eq (h : g.SameOutline g') (n : String) : g'.mixinsOf n = g.mixinsOf n := by
  rw [mixinsOf_eq_outline, mixinsOf_eq_outline, h.outline, h.cutMixins]

lemma cycleDiagnostic_eq (h : g.SameOutline g') (n : String) (kind : EdgeKind)
    (cycle : List String) : g'.cycleDiagnostic n kind cycle = g.cycleDiagnostic n kind cycle := by
  rw [cycleDiagnostic_eq_outline g', cycleDiagnostic_eq_outline g, h.outline]
  rfl

lemma cutParent (h : g.SameOutline g') (n : String) : (g.cutParent n).SameOutline (g'.cutParent n) :=
  ⟨h.outline, by simp only [ClassGraph.cutParent, h.cutParents], h.cutMixins⟩

lemma cutMixin (h : g.SameOutline g') (n m : String) :
    (g.cutMixin n m).SameOutline (g'.cutMixin n m) :=
  ⟨h.outline, h.cutParents, by simp only [ClassGraph.cutMixin, h.cutMixins]⟩

lemma parentPath_eq (h : g.SameOutline g') (finished path : List String) (n : String) :
    g'.parentPath finished path n = g.parentPath finished path n := by
  fun_induction g.parentPath finished path n with
  | case1 path n hfin => rw [parentPath, if_pos hfin]
  | case2 path n hfin hs => simp [parentPath, hfin, hs]
  | case3 path n hfin hs hn hp => simp [parentPath, hfin, hs, h.mem_names, hn, h.parentOf_eq, hp]
  | case4 path n hfin hs hn p hp ih =>
    rw [parentPath]
    simp [hfin, hs, h.mem_names, hn, h.parentOf_eq, hp, ih]
  | case5 path n hfin hs hn => simp [parentPath, hfin, hs, h.mem_names, hn]

lemma ancestorsFrom_eq (h : g.SameOutline g') (seen : List String) (n : String) :
    g'.ancestorsFrom seen n = g.ancestorsFrom seen n := by
  fun_induction g.ancestorsFrom seen n with
  | case1 seen n hp => rw [ancestorsFrom, h.parentOf_eq, hp]
  | case2 seen n p hp hs =>
    rw [ancestorsFrom, h.parentOf_eq, hp]
    simp [hs]
  | case3 seen n p hp hs hn ih =>
    rw [ancestorsFrom, h.parentOf_eq, hp]
    simp [hs, h.mem_names, hn, ih]
  | case4 seen n p hp hs hn =>
    rw [ancestorsFrom, h.parentOf_eq, hp]
    simp [hs, h.mem_names, hn]

lemma ancestorNames_eq (h : g.SameOutline g') (n : String) : g'.ancestorNames n = g.ancestorNames n :=
  h.ancestorsFrom_eq [n] n

lemma mixinCandidates_eq (h : g.SameOutline g') (n : String) :
    g'.mixinCandidates n = g.mixinCandidates n := by
  simp only [mixinCandidates, h.ancestorNames_eq, h.mixinsOf_eq]

end SameOutline

/-! ### Two runs of cutting -/

/-- Two graphs are being freed of cycles, and have come to the same point. -/
structure Cutting.Alike (s s' : Cutting) : Prop where
  graph : s.graph.SameOutline s'.graph
  finished : s'.finished = s.finished
  journal : s'.journal = s.journal

namespace Cutting.Alike

lemma start (h : g.SameOutline g') : Alike { graph := g } { graph := g' } := ⟨h, rfl, rfl⟩

lemma cutParentCycleFrom (h : s.Alike s') (n : String) :
    (cutParentCycleFrom s n).Alike (cutParentCycleFrom s' n) := by
  rw [ClassGraph.cutParentCycleFrom, ClassGraph.cutParentCycleFrom, h.finished, h.graph.parentPath_eq]
  obtain ⟨path, met⟩ := s.graph.parentPath s.finished [] n
  cases met with
  | none => exact ⟨h.graph, rfl, h.journal⟩
  | some again =>
    cases hclosing : path.getLast? with
    | none =>
      simp only [hclosing]
      exact ⟨h.graph, rfl, h.journal⟩
    | some closing =>
      simp only [hclosing, h.journal, h.graph.cycleDiagnostic_eq]
      exact ⟨h.graph.cutParent closing, rfl, rfl⟩

lemma foldl {step step' : Cutting → String → Cutting}
    (hstep : ∀ s s' : Cutting, s.Alike s' → ∀ n, (step s n).Alike (step' s' n)) (h : s.Alike s')
    (ns : List String) : (ns.foldl step s).Alike (ns.foldl step' s') := by
  induction ns generalizing s s' with
  | nil => exact h
  | cons n ns ih => exact ih (hstep s s' h n)

lemma cutBack (h : s.Alike s') (stack : List String) (n m : String) :
    (s.cutBack stack n m).Alike (s'.cutBack stack n m) := by
  refine ⟨h.graph.cutMixin n m, h.finished, ?_⟩
  rw [Cutting.cutBack, Cutting.cutBack, h.journal, h.graph.cycleDiagnostic_eq]

/-- Visits of the same classes go the same way. -/
lemma visit (names names' : List String) (hnames : ∀ n, n ∈ names' ↔ n ∈ names) :
    (∀ (stack : List String) (n : String) (s : Cutting), ∀ s', s.Alike s' →
      (visitMixins names stack n s).Alike (visitMixins names' stack n s')) ∧
    ∀ (stack : List String) (n : String) (ms : List String) (s : Cutting), ∀ s', s.Alike s' →
      (visitEach names stack n ms s).Alike (visitEach names' stack n ms s') := by
  apply visitMixins.mutual_induct
  case case1 =>
    intro stack n s hguard ih s' h
    have hguard' : n ∈ names' ∧ n ∉ stack := by rwa [hnames]
    rw [visitMixins, dif_pos hguard, visitMixins, dif_pos hguard', h.graph.mixinsOf_eq]
    obtain ⟨hgraph, hfinished, hjournal⟩ := ih s' h
    exact ⟨hgraph, congrArg (n :: ·) hfinished, hjournal⟩
  case case2 =>
    intro stack n s hguard s' h
    have hguard' : ¬(n ∈ names' ∧ n ∉ stack) := by rwa [hnames]
    rwa [visitMixins, dif_neg hguard, visitMixins, dif_neg hguard']
  case case3 =>
    intro stack n s s' h
    rwa [visitEach, visitEach]
  case case4 =>
    intro stack n s m ms s₁ ihVisit ihRest s' h
    rw [visitEach, visitEach]
    apply ihRest
    by_cases hm : m ∈ names
    · rw [if_neg (not_not.2 ((hnames m).2 hm))]
      by_cases hstack : m ∈ stack
      · have heq : s₁ = s.cutBack stack n m := (dif_neg (not_not.2 hm)).trans (dif_pos hstack)
        rw [heq, if_pos hstack]
        exact h.cutBack stack n m
      · rw [if_neg hstack, h.finished]
        by_cases hfin : m ∈ s.finished
        · have heq : s₁ = s := (dif_neg (not_not.2 hm)).trans ((dif_neg hstack).trans (dif_pos hfin))
          rwa [heq, if_pos hfin]
        · have heq : s₁ = visitMixins names stack m s :=
            (dif_neg (not_not.2 hm)).trans ((dif_neg hstack).trans (dif_neg hfin))
          rw [heq, if_neg hfin]
          exact ihVisit s' h
    · have heq : s₁ = s := dif_pos hm
      rwa [heq, if_pos ((hnames m).not.2 hm)]

end Cutting.Alike

namespace SameOutline

lemma cutParentCycles (h : g.SameOutline g') :
    g.cutParentCycles.1.SameOutline g'.cutParentCycles.1 ∧
      g'.cutParentCycles.2 = g.cutParentCycles.2 := by
  have hrun := (Cutting.Alike.start h).foldl (fun _ _ hs n => hs.cutParentCycleFrom n) g.sortedNames
  rw [ClassGraph.cutParentCycles, ClassGraph.cutParentCycles, h.sortedNames_eq]
  exact ⟨hrun.graph, hrun.journal⟩

lemma cutMixinCycles (h : g.SameOutline g') :
    g.cutMixinCycles.1.SameOutline g'.cutMixinCycles.1 ∧
      g'.cutMixinCycles.2 = g.cutMixinCycles.2 := by
  have hstep : ∀ s s' : Cutting, s.Alike s' → ∀ n,
      Cutting.Alike (if n ∈ s.finished then s else visitMixins g.names [] n s)
        (if n ∈ s'.finished then s' else visitMixins g'.names [] n s') := by
    intro s s' hs n
    rw [hs.finished]
    split
    · exact hs
    · exact (Cutting.Alike.visit _ _ fun _ => h.mem_names).1 [] n s s' hs
  have hrun := (Cutting.Alike.start h).foldl hstep g.sortedNames
  rw [ClassGraph.cutMixinCycles, ClassGraph.cutMixinCycles, h.sortedNames_eq]
  exact ⟨hrun.graph, hrun.journal⟩

/-- Graphs of the same outline have the same edges cut, and the same is reported. -/
lemma cutCycles (h : g.SameOutline g') :
    g.cutCycles.1.SameOutline g'.cutCycles.1 ∧ g'.cutCycles.2 = g.cutCycles.2 := by
  obtain ⟨hparents, hparents'⟩ := h.cutParentCycles
  obtain ⟨hmixins, hmixins'⟩ := hparents.cutMixinCycles
  exact ⟨hmixins, congrArg₂ (· ++ ·) hparents' hmixins'⟩

end SameOutline

/-- Cutting cycles leaves everything but the edges that are followed. -/
lemma exists_cutCycles_eq (g : ClassGraph) :
    ∃ cutParents cutMixins, g.cutCycles.1 = { g with cutParents, cutMixins } := by
  obtain ⟨s, cuts, hs, hcut⟩ := exists_isCutting g
  obtain ⟨s', cuts', hs', hpaused, -⟩ := exists_isPaused s.graph
  have hgraph : g.cutCycles.1 = s'.graph := by simp [cutCycles, hs, hs']
  obtain ⟨es, hes⟩ : ∃ es, s'.graph = s.graph.withoutMixins es := ⟨_, hpaused.graph⟩
  rw [hgraph, hes, hcut.graph]
  exact ⟨_, _, rfl⟩

/-- Where the ranks of classes fall from each to its parent, and other ranks from each to its mixins,
nothing is cut. -/
lemma cutCycles_of_ranks (rank rank' : String → Nat)
    (hparents : ∀ n ∈ g.names, ∀ p ∈ g.names, g.parentOf n = some p → rank p < rank n)
    (hmixins : ∀ n ∈ g.names, ∀ m ∈ g.names, m ∈ g.mixinsOf n → rank' m < rank' n) :
    g.cutCycles.1 = g := by
  change g.cutParentCycles.1.cutMixinCycles.1 = g
  rw [cutParentCycles_of_rank rank hparents, cutMixinCycles_of_rank rank' hmixins]

/-! ### Changed classes -/

lemma canonical_mapClasses (g : ClassGraph) {f : DocClass → DocClass} (h : ∀ c, (f c).name = c.name)
    (halternate : ∀ c, (f c).alternateNames = c.alternateNames) (n : String) :
    (g.mapClasses f h).canonical n = g.canonical n := by
  rw [canonical, canonical, g.find?_mapClasses h halternate, Option.map_map]
  cases g.find? n <;> simp [h]

/-- Changes that leave names, places and what edges lead to leave the outline. -/
lemma SameOutline.mapClasses (g : ClassGraph) {f : DocClass → DocClass}
    (h : ∀ c, (f c).name = c.name) (halternate : ∀ c, (f c).alternateNames = c.alternateNames)
    (hparent : ∀ c, (f c).parent.map g.canonical = c.parent.map g.canonical)
    (hmixins : ∀ c, (f c).mixins.map g.canonical = c.mixins.map g.canonical)
    (hfile : ∀ c, (f c).file = c.file) (hline : ∀ c, (f c).line = c.line) :
    g.SameOutline (g.mapClasses f h) := by
  have hcanonical : (g.mapClasses f h).canonical = g.canonical :=
    funext fun n => g.canonical_mapClasses h halternate n
  refine ⟨fun n => ?_, rfl, rfl⟩
  rw [outline?, outline?, g.find?_mapClasses h halternate, hcanonical, Option.map_map]
  simp only [Function.comp_def, h, hparent, hmixins, hfile, hline]

lemma firstOccurrences_map {f : DocClass → DocClass} (h : ∀ c, (f c).name = c.name)
    (seen : List String) (cs : List DocClass) :
    firstOccurrences seen (cs.map f) = (firstOccurrences seen cs).map f := by
  induction cs generalizing seen with
  | nil => rfl
  | cons c cs ih =>
    simp only [List.map_cons, firstOccurrences, ih, h]
    rw [apply_ite (List.map _)]
    rfl

/-- Where the edges lead to the same classes, these are searched in the same order. -/
lemma searchOrder_mapClasses (g : ClassGraph) {f : DocClass → DocClass} (h : ∀ c, (f c).name = c.name)
    (halternate : ∀ c, (f c).alternateNames = c.alternateNames)
    (hsame : g.SameOutline (g.mapClasses f h)) (n : String) :
    (g.mapClasses f h).searchOrder n = (g.searchOrder n).map f := by
  have hfind : (g.mapClasses f h).find? = fun n => (g.find? n).map f :=
    funext fun n => g.find?_mapClasses h halternate n
  rw [searchOrder, searchOrder, hsame.mixinCandidates_eq, hsame.ancestorNames_eq, hfind,
    ← firstOccurrences_map h]
  simp [List.map_filterMap]

/-! ### Reordering -/

/-- A name means the same class in every order, if at most one class claims it as an alternate name. -/
lemma find?_of_perm (h : g.classes.Perm g'.classes)
    (hclaims : g.classes.Pairwise fun c d => c.alternateNames.Disjoint d.alternateNames) (n : String) :
    g'.find? n = g.find? n := by
  have hfull : {c | c ∈ g.classes ∧ decide (c.name = n)}.Subsingleton := by
    rintro c ⟨hc, hcn⟩ d ⟨hd, hdn⟩
    apply List.inj_on_of_nodup_map g.distinct hc hd
    rw [of_decide_eq_true hcn, of_decide_eq_true hdn]
  have halternate : {c | c ∈ g.classes ∧ decide (n ∈ c.alternateNames)}.Subsingleton := by
    rintro c ⟨hc, hcn⟩ d ⟨hd, hdn⟩
    by_contra hne
    have : Std.Symm fun c d : DocClass => c.alternateNames.Disjoint d.alternateNames :=
      ⟨fun _ _ hcd _ hd hc => hcd hc hd⟩
    exact hclaims.forall hc hd hne (of_decide_eq_true hcn) (of_decide_eq_true hdn)
  rw [find?, find?, List.find?_eq_find?_of_perm h hfull, List.find?_eq_find?_of_perm h halternate]

lemma SameOutline.of_perm (h : g.classes.Perm g'.classes)
    (hclaims : g.classes.Pairwise fun c d => c.alternateNames.Disjoint d.alternateNames)
    (hcutParents : g'.cutParents = g.cutParents) (hcutMixins : g'.cutMixins = g.cutMixins) :
    g.SameOutline g' := by
  have hfind : g'.find? = g.find? := funext fun n => find?_of_perm h hclaims n
  have hcanonical : g'.canonical = g.canonical := by
    funext n
    rw [canonical, canonical, hfind]
  refine ⟨fun n => ?_, hcutParents, hcutMixins⟩
  rw [outline?, outline?, hfind, hcanonical]

/-- Two orders of the same classes have the same edges cut, and the same is reported in the same order. -/
theorem cutCycles_independent_of_order {cs cs' : List DocClass} (h : cs.Perm cs')
    (hd : (cs.map DocClass.name).Nodup)
    (hclaims : cs.Pairwise fun c d => c.alternateNames.Disjoint d.alternateNames)
    (registered : List String) (registeredOther : List Scalar) :
    ∃ g g', ofClasses cs registered registeredOther = .ok g ∧
      ofClasses cs' registered registeredOther = .ok g' ∧
      g'.cutCycles.1.cutParents = g.cutCycles.1.cutParents ∧
      g'.cutCycles.1.cutMixins = g.cutCycles.1.cutMixins ∧
      g'.cutCycles.2 = g.cutCycles.2 := by
  have hd' : (cs'.map DocClass.name).Nodup := (h.map DocClass.name).nodup_iff.1 hd
  let g : ClassGraph := { classes := cs, registered, registeredOther, distinct := hd }
  let g' : ClassGraph := { classes := cs', registered, registeredOther, distinct := hd' }
  have hsame : g.SameOutline g' := .of_perm h hclaims rfl rfl
  obtain ⟨hgraph, hjournal⟩ := hsame.cutCycles
  exact ⟨g, g', ofClasses_eq_ok hd, ofClasses_eq_ok hd', hgraph.cutParents, hgraph.cutMixins, hjournal⟩

/-- Parents go round through an alternate name, and mixins through a third class. -/
def roundClasses : List DocClass := [
  { name := "A", parent := some "X", mixins := ["C"] },
  { name := "B", parent := some "A", alternateNames := ["X"] },
  { name := "C", mixins := ["A"], alternateNames := ["Y"] }]

theorem cutCycles_independent_of_order_round :
    roundClasses.Perm roundClasses.reverse ∧ (roundClasses.map DocClass.name).Nodup ∧
      roundClasses.Pairwise (fun c d => c.alternateNames.Disjoint d.alternateNames) ∧
      ∃ g g', ofClasses roundClasses [] = .ok g ∧ ofClasses roundClasses.reverse [] = .ok g' ∧
        g.cutCycles.1.cutParents = ["B"] ∧ g'.cutCycles.1.cutParents = ["B"] ∧
        g.cutCycles.1.cutMixins = [("C", "A")] ∧ g'.cutCycles.1.cutMixins = [("C", "A")] ∧
        g'.cutCycles.2 = g.cutCycles.2 := by
  have hperm : roundClasses.Perm roundClasses.reverse := roundClasses.reverse_perm.symm
  have hd : (roundClasses.map DocClass.name).Nodup := by decide
  have hclaims : roundClasses.Pairwise fun c d => c.alternateNames.Disjoint d.alternateNames := by
    simp [roundClasses]
  obtain ⟨g, g', hg, hg', hparents, hmixins, hjournal⟩ :=
    cutCycles_independent_of_order hperm hd hclaims [] []
  have hcut : ((ofClasses roundClasses []).toOption.map fun g =>
      (g.cutCycles.1.cutParents, g.cutCycles.1.cutMixins)) = some (["B"], [("C", "A")]) := by cbv
  rw [hg] at hcut
  obtain ⟨hparents₀, hmixins₀⟩ := Prod.mk.inj (Option.some.inj hcut)
  exact ⟨hperm, hd, hclaims, g, g', hg, hg', hparents₀, hparents.trans hparents₀, hmixins₀,
    hmixins.trans hmixins₀, hjournal⟩

end DocGraph.ClassGraph
