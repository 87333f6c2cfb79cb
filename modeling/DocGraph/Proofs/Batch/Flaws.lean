import DocGraph.Proofs.Batch.Course
import DocGraph.Proofs.Graph.Flaws
import DocGraph.Proofs.Graph.Naming
import Mathlib.Tactic.Common

/-!
# Flaws, one by one

The flaws of a graph are those of its classes, in order. Each is told by what is there: a reference by the
names that are known, a parameter by those before it, and a replaced definition by the earlier reports and
by the definitions before it. None of this asks in which state the search is when it gets there.

Looking for flaws only adds reports. The graph that was resolved is the one in which flaws are looked for,
and the result.
-/

namespace DocGraph

namespace Lint

/-! ### What is looked for -/

/-- What is found at each place of a list, given what stands before that place. -/
def atEach {α β : Type} (f : List α → α → List β) (xs : List α) : List β :=
  (List.finRange xs.length).flatMap fun i : Fin xs.length => f (xs.take i) xs[i]

/-- The flaws of a parameter behind others. -/
def paramFlaws (o : LintOptions) (c : DocClass) (m : Member) (before : List Param) (p : Param) :
    List Diagnostic :=
  (if p.name ∈ before.map Param.name then
    [ofMember c m ("Duplicate parameter " ++ p.name ++ " in " ++ m.ref.text)] else []) ++
  (if o.paramDocs = true ∧ p.doc = "" then
    [ofMember c m ("Undocumented parameter " ++ p.name ++ " of " ++ m.ref.text)] else []) ++
  (if p.optional = false ∧ ∃ q ∈ before, q.optional = true then
    [ofMember c m ("Required parameter " ++ p.name ++ " after optional in " ++ m.ref.text)] else [])

/-- The flaws of a member. Only methods, events and mixins of styles have parameters. -/
def memberFlaws (o : LintOptions) (c : DocClass) (m : Member) : List Diagnostic :=
  (if o.noDoc = true ∧ m.doc = "" ∧ m.isPrivate = false then
    [ofMember c m ("No documentation for " ++ m.ref.text)] else []) ++
  if m.kind ∈ [MemberKind.method, .event, .cssMixin] then atEach (paramFlaws o c m) m.params else []

/-- The flaw that a definition is behind others that were replaced, if it has not been reported. Of the
earlier reports, each stands for one definition, and the first ones are used up first. -/
def replacedFlaws (earlier : List Diagnostic) (c : DocClass) (before : List Fragment) (f : Fragment) :
    List Diagnostic :=
  if (reported earlier).count (some c.name, some f.name) ≤ (before.map Fragment.name).count f.name then
    [ofClass c ("Duplicate " ++ f.subject.name ++ " " ++ c.name ++ "#" ++ f.name ++
      "; definition at " ++ f.file ++ ":" ++ toString f.line ++ " ignored") (some f.name)]
  else []

end Lint

namespace ClassGraph

open Lint

/-- A name is that of no class, and no external one. -/
def Lacks (g : ClassGraph) (n : String) : Prop :=
  n ∉ g.names ∧ (∀ c ∈ g.classes, n ∉ c.alternateNames) ∧ n ∉ g.registered

instance (g : ClassGraph) (n : String) : Decidable (g.Lacks n) :=
  inferInstanceAs (Decidable (_ ∧ _ ∧ _))

/-- The flaws of the references of a class, the parent before the mixins. -/
def referenceFlaws (g : ClassGraph) (c : DocClass) : List Diagnostic :=
  (c.parent.toList.filter fun n => g.Lacks n).map (notFound c .parent) ++
    (c.mixins.filter fun n => g.Lacks n).map (notFound c .mixin)

/-- The flaws of a class, given what was reported before. -/
def classFlaws (g : ClassGraph) (o : LintOptions) (earlier : List Diagnostic) (c : DocClass) :
    List Diagnostic :=
  g.referenceFlaws c ++ atEach (replacedFlaws earlier c) c.shadowed ++
    (if o.noDoc = true ∧ c.doc = "" ∧ c.isPrivate = false then
      [ofClass c ("No documentation for class " ++ c.name)] else []) ++
    c.members.values.flatMap (memberFlaws o c)

end ClassGraph

/-! ### The course of the search -/

namespace Lint

variable {o : LintOptions} {c : DocClass} {cs : List DocClass} {m : Member} {left : Reported}

section AtEach

variable {α β : Type} {f g : List α → α → List β} {x : α} {xs : List α}

@[simp] lemma atEach_nil : atEach f [] = [] := rfl

/-- What is found behind the first place is found with that place before it. -/
lemma atEach_cons : atEach f (x :: xs) = f [] x ++ atEach (fun before => f (x :: before)) xs := by
  have hplaces : List.finRange (x :: xs).length = 0 :: (List.finRange xs.length).map Fin.succ :=
    List.finRange_succ
  rw [atEach, hplaces, List.flatMap_cons, List.flatMap_map]
  rfl

end AtEach

/-- The search keeps the names it has seen, and whether a parameter was optional. -/
lemma params_eq {seen : List String} {optional : Bool} {ps : List Param} (before : List Param)
    (hseen : ∀ n, n ∈ seen ↔ n ∈ before.map Param.name)
    (hoptional : optional = true ↔ ∃ q ∈ before, q.optional = true) :
    params o c m seen optional ps = atEach (fun between => paramFlaws o c m (before ++ between)) ps := by
  induction ps generalizing seen optional before with
  | nil => rfl
  | cons p ps ih =>
    have hrest : params o c m (p.name :: seen) (optional || p.optional) ps =
        atEach (fun between => paramFlaws o c m (before ++ p :: between)) ps := by
      have hseen' : ∀ n, n ∈ p.name :: seen ↔ n ∈ (before ++ [p]).map Param.name := by
        intro n
        rw [List.mem_cons, hseen, List.map_append, List.mem_append, List.map_singleton,
          List.mem_singleton, or_comm]
      have hoptional' : (optional || p.optional) = true ↔ ∃ q ∈ before ++ [p], q.optional = true := by
        rw [Bool.or_eq_true, hoptional]
        simp [or_and_right, exists_or]
      rw [ih _ hseen' hoptional']
      simp only [List.append_assoc, List.singleton_append]
    rw [params, atEach_cons, hrest, List.append_nil, paramFlaws]
    have hduplicate : seen.contains p.name = true ↔ p.name ∈ before.map Param.name := by
      rw [List.contains_iff_mem, hseen]
    have hundocumented : (o.paramDocs && p.doc.isEmpty) = true ↔ o.paramDocs = true ∧ p.doc = "" := by
      rw [Bool.and_eq_true, String.isEmpty_iff]
    have hrequired : (optional && !p.optional) = true ↔
        p.optional = false ∧ ∃ q ∈ before, q.optional = true := by
      rw [Bool.and_eq_true, hoptional, Bool.not_eq_true', and_comm]
    simp only [hduplicate, hundocumented, hrequired]

lemma member_eq (o : LintOptions) (c : DocClass) (m : Member) : member o c m = memberFlaws o c m := by
  have hparams : params o c m [] false m.params = atEach (paramFlaws o c m) m.params :=
    params_eq [] (by simp) (by simp)
  have hkinds : hasParams m.kind = true ↔ m.kind ∈ [MemberKind.method, .event, .cssMixin] := by
    simp [hasParams, or_assoc]
  have hundocumented : (o.noDoc && m.doc.isEmpty && !m.isPrivate) = true ↔
      o.noDoc = true ∧ m.doc = "" ∧ m.isPrivate = false := by
    simp [and_assoc]
  rw [member, memberFlaws, hparams]
  simp only [hkinds, hundocumented]

/-- Reports of replaced definitions are used up one by one, those about one class by that class alone. -/
lemma shadowed_eq {earlier : List Diagnostic} {fs : List Fragment} (before : List Fragment)
    (hleft : ∀ n, left.count (some c.name, some n) =
      (reported earlier).count (some c.name, some n) - (before.map Fragment.name).count n) :
    (shadowed c left fs).1 = atEach (fun between => replacedFlaws earlier c (before ++ between)) fs := by
  induction fs generalizing left before with
  | nil => rfl
  | cons f fs ih =>
    have hmem : (some c.name, some f.name) ∈ left ↔
        ¬(reported earlier).count (some c.name, some f.name) ≤ (before.map Fragment.name).count f.name := by
      rw [← List.count_pos_iff, hleft]
      omega
    have hbefore (n : String) : ((before ++ [f]).map Fragment.name).count n =
        (before.map Fragment.name).count n + if f.name = n then 1 else 0 := by
      simp [List.count_singleton]
    have hrest {left' : Reported} (hleft' : ∀ n, left'.count (some c.name, some n) =
        left.count (some c.name, some n) - if f.name = n then 1 else 0) :
        (shadowed c left' fs).1 =
          atEach (fun between => replacedFlaws earlier c (before ++ f :: between)) fs := by
      rw [ih (before ++ [f])]
      · simp only [List.append_assoc, List.singleton_append]
      · intro n
        rw [hleft', hleft, hbefore, Nat.sub_sub]
    rw [shadowed, atEach_cons, List.append_nil, replacedFlaws]
    dsimp only
    split_ifs with hreported hunreported hunreported
    · exact absurd hunreported (hmem.1 hreported)
    · -- the report is used up
      refine hrest fun n => ?_
      rw [List.count_erase]
      simp
    · -- no report is left, so none can be used up
      refine congrArg (_ :: ·) (hrest fun n => ?_)
      split_ifs with hn
      · rw [← hn, List.count_eq_zero.2 hreported]
      · rfl
    · exact absurd (hmem.2 hunreported) hreported

lemma count_shadowed_of_ne {cls : String} (hcls : cls ≠ c.name) (left : Reported) (fs : List Fragment)
    (n : String) : (shadowed c left fs).2.count (some cls, some n) = left.count (some cls, some n) := by
  induction fs generalizing left with
  | nil => rfl
  | cons f fs ih =>
    rw [shadowed]
    dsimp only
    split_ifs with h
    · rw [ih]
      apply List.count_erase_of_ne
      simp [hcls]
    · exact ih left

/-- What a class refers to and the graph lacks is unresolved. -/
lemma contains_unresolved (g : ClassGraph) (hc : c ∈ g.classes) {n : String} (hn : n ∈ c.references) :
    g.unresolved.contains n = decide (g.Lacks n) := by
  rw [Bool.eq_iff_iff, List.contains_iff_mem, ClassGraph.mem_unresolved, ClassGraph.find?_eq_none_iff,
    decide_eq_true_iff, ClassGraph.Lacks]
  constructor
  · rintro ⟨-, ⟨hnames, halternate⟩, hregistered⟩
    exact ⟨hnames, fun c hc hn => halternate ⟨c, hc, hn⟩, hregistered⟩
  · rintro ⟨hnames, halternate, hregistered⟩
    exact ⟨⟨c, hc, hn⟩, ⟨hnames, fun ⟨c, hc, hn⟩ => halternate c hc hn⟩, hregistered⟩

lemma references_eq (g : ClassGraph) (hc : c ∈ g.classes) :
    references g.unresolved c = g.referenceFlaws c := by
  have hparent : (c.parent.toList.filter fun n => g.unresolved.contains n) =
      c.parent.toList.filter fun n => g.Lacks n :=
    List.filter_congr fun n hn => contains_unresolved g hc (List.mem_append_left _ hn)
  have hmixins : (c.mixins.filter fun n => g.unresolved.contains n) = c.mixins.filter fun n => g.Lacks n :=
    List.filter_congr fun n hn => contains_unresolved g hc (List.mem_append_right _ hn)
  rw [ClassGraph.referenceFlaws, ← hparent, ← hmixins, references, namedReferences, List.filter_append,
    List.map_append, List.filter_map, List.filter_map, List.map_map, List.map_map]
  rfl

lemma cls_eq (g : ClassGraph) {earlier : List Diagnostic} (hc : c ∈ g.classes)
    (hleft : ∀ n, left.count (some c.name, some n) = (reported earlier).count (some c.name, some n)) :
    (cls o g.unresolved c left).1 = g.classFlaws o earlier c := by
  have hshadowed : (shadowed c left c.shadowed).1 = atEach (replacedFlaws earlier c) c.shadowed :=
    shadowed_eq [] (by simpa using hleft)
  have hundocumented : (o.noDoc && c.doc.isEmpty && !c.isPrivate) = true ↔
      o.noDoc = true ∧ c.doc = "" ∧ c.isPrivate = false := by
    simp [and_assoc]
  have hmembers : member o c = memberFlaws o c := funext (member_eq o c)
  rw [ClassGraph.classFlaws, ← hshadowed, ← references_eq g hc, ← hmembers]
  simp only [cls, hundocumented]

lemma classes_eq (g : ClassGraph) {earlier : List Diagnostic} (hd : (cs.map DocClass.name).Nodup)
    (hcs : ∀ c ∈ cs, c ∈ g.classes)
    (hleft : ∀ c ∈ cs, ∀ n,
      left.count (some c.name, some n) = (reported earlier).count (some c.name, some n)) :
    classes o g.unresolved left cs = cs.flatMap (g.classFlaws o earlier) := by
  induction cs generalizing left with
  | nil => rfl
  | cons c cs ih =>
    rw [List.map_cons, List.nodup_cons] at hd
    have hrest : classes o g.unresolved (cls o g.unresolved c left).2 cs =
        cs.flatMap (g.classFlaws o earlier) := by
      refine ih hd.2 (fun c' hc' => hcs c' (List.mem_cons_of_mem _ hc')) fun c' hc' n => ?_
      have hne : c'.name ≠ c.name := fun he => hd.1 (he ▸ List.mem_map_of_mem hc')
      exact (count_shadowed_of_ne hne left c.shadowed n).trans (hleft c' (List.mem_cons_of_mem _ hc') n)
    rw [classes, List.flatMap_cons, ← hrest, ← cls_eq g (hcs c (List.mem_cons_self ..))
      (hleft c (List.mem_cons_self ..))]

end Lint

/-- The flaws of a graph are those of its classes, in order. -/
lemma ClassGraph.lint_eq (g : ClassGraph) (o : LintOptions) (earlier : List Diagnostic) :
    g.lint o earlier = g.classes.flatMap (g.classFlaws o earlier) :=
  Lint.classes_eq g g.distinct (fun _ hc => hc) fun _ _ _ => rfl

namespace Batch

variable {s : Settings} {g g' : ClassGraph} {j j' : Journal}

/-- Flaws are looked for last, in the graph that is the result. -/
lemma reportFlaws_of_resolve (h : (resolve s g).Yields j g' j') :
    ∃ o j₁ ds, g' = (g.cutCycles.1.inheritDocs.1.withVersions o).settleReturns ∧
      (reportFlaws s g').Yields j₁ ds j' := by
  obtain ⟨o, options, j₁, hg, hoptions, -, rfl⟩ := resolve_steps h
  refine ⟨o, j ++ j₁ ++ [.stage "Resolving" "lint"], _, hg, reportFlaws_yields.2 ⟨options, hoptions, rfl, ?_⟩⟩
  have hstage : Journal.diagnostics [.stage "Resolving" "lint"] = [] := rfl
  rw [Journal.diagnostics_append (j ++ j₁), hstage, List.append_nil, List.append_assoc _ [_],
    List.singleton_append]

/-- What is reported are just the flaws of the classes in their order, each told by what is there, behind
what was reported before. If the settings do not say what to look for, nothing is reported. Where a graph is
resolved, this is the last that is done, and the graph in which flaws were looked for is the result. -/
theorem reportFlaws_exact (s : Settings) (g : ClassGraph) (j : Journal) :
    (∀ ds j', (reportFlaws s g).Yields j ds j' ↔
      ∃ o, s.lint = .ok o ∧ ds = g.classes.flatMap (g.classFlaws o j.diagnostics) ∧
        j' = j ++ ds.map .warning) ∧
    (∀ e, s.lint = .error e → (reportFlaws s g).finishAfter j = (.error (.fault e), j)) ∧
    ∀ g' j', (resolve s g).Yields j g' j' →
      ∃ o j₁ ds, g' = (g.cutCycles.1.inheritDocs.1.withVersions o).settleReturns ∧
        (reportFlaws s g').Yields j₁ ds j' := by
  refine ⟨?_, ?_, fun g' j' => reportFlaws_of_resolve⟩
  · intro ds j'
    simp only [reportFlaws_yields, g.lint_eq, eq_comm]
  · intro e he
    rw [reportFlaws, he]
    rfl

/-- A method whose parameters repeat a name and go on behind an optional one. -/
def flawedMethod : Member where
  ref := ⟨"Menu", .method, "show"⟩
  params := [{ name := "at", doc := "The place.", optional := true }, { name := "at" }]

/-- A menu with this method that extends an alternate name and mixes in what is missing. -/
def flawedGraph : ClassGraph where
  classes := [
    { name := "Menu", parent := some "Box", mixins := ["Gone"]
      members := ⟨[(⟨.method, "show"⟩, flawedMethod)], by decide⟩
      located := by decide },
    { name := "Pane", alternateNames := ["Box"] }]
  distinct := by decide

theorem reportFlaws_exact_flawed :
    (∃ ds, (reportFlaws .empty flawedGraph).Yields [] ds (ds.map .warning) ∧
      ds.map Diagnostic.message = [
        "Class Gone referenced in mixins of Menu not found",
        "Duplicate parameter at in Menu#method-show",
        "Undocumented parameter at of Menu#method-show",
        "Required parameter at after optional in Menu#method-show"]) ∧
    (reportFlaws ⟨.map [(.text "lint", .bool true)]⟩ flawedGraph).finishAfter [] =
      (.error (.fault .noFields), []) ∧
    ∃ g' j' j₁ ds,
      (resolve .empty flawedGraph).Yields [] g' j' ∧ (reportFlaws .empty g').Yields j₁ ds j' := by
  obtain ⟨hyields, -, hresolve⟩ := reportFlaws_exact .empty flawedGraph []
  obtain ⟨-, hfails, -⟩ := reportFlaws_exact ⟨.map [(.text "lint", .bool true)]⟩ flawedGraph []
  refine ⟨⟨_, (hyields _ _).2 ⟨{}, rfl, rfl, rfl⟩, by decide⟩, hfails _ rfl, ?_⟩
  have hends : ((resolve .empty flawedGraph).finishAfter []).1.toOption.isSome = true := by decide +kernel
  rcases h : (resolve .empty flawedGraph).finishAfter [] with ⟨e | g', j'⟩
  · simp [h, Except.toOption] at hends
  · obtain ⟨_, j₁, ds, -, hds⟩ := hresolve g' j' h
    exact ⟨g', j', j₁, ds, h, hds⟩

end Batch

end DocGraph
