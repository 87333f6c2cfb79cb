import DocGraph.Batch.Basic
import DocGraph.Proofs.Catalog.Draft
import DocGraph.Proofs.Outcome
import Mathlib.Tactic.Common

/-!
# The course of a batch

A run that ends with a result has gone through all its steps, each with a result of its own and each
from the journal that the step before it left. For a batch this says what its catalog and its graph are
made of.
-/

namespace DocGraph

/-! ### Runs -/

namespace Run

variable {α β : Type} {x : Run α} {f : α → Run β} {a b : α} {c : β} {j j' : Journal}

/-- How a run ends that goes on after a journal. -/
def finishAfter (j : Journal) (x : Run α) : Except Failure α × Journal := (ExceptT.run x).run j

/-- A run that goes on after a journal ends with a result and with another journal. -/
def Yields (x : Run α) (j : Journal) (a : α) (j' : Journal) : Prop := x.finishAfter j = (.ok a, j')

lemma finish_eq_iff : x.finish = (.ok a, j) ↔ x.Yields [] a j := Iff.rfl

lemma finishAfter_bind (j : Journal) (x : Run α) (f : α → Run β) :
    (x >>= f).finishAfter j = match x.finishAfter j with
      | (.ok a, j) => (f a).finishAfter j
      | (.error e, j) => (.error e, j) := by
  have hbind : (x >>= f).finishAfter j =
      let (r, j') := x.finishAfter j
      ((ExceptT.bindCont f r).run j' : Except Failure β × Journal) := rfl
  rw [hbind]
  rcases x.finishAfter j with ⟨e | a, j'⟩ <;> rfl

@[simp] lemma yields_bind :
    (x >>= f).Yields j c j' ↔ ∃ a j₁, x.Yields j a j₁ ∧ (f a).Yields j₁ c j' := by
  rw [Yields, finishAfter_bind]
  simp only [Yields]
  rcases x.finishAfter j with ⟨e | a, j₁⟩
  · simp
  · simp [and_assoc]

@[simp] lemma yields_pure : (pure a : Run α).Yields j b j' ↔ a = b ∧ j = j' := by
  change (Except.ok a, j) = _ ↔ _
  rw [Prod.mk.injEq, Except.ok.injEq]

@[simp] lemma yields_map {f : α → β} : (f <$> x).Yields j c j' ↔ ∃ a, x.Yields j a j' ∧ f a = c := by
  rw [map_eq_pure_bind, yields_bind]
  simp

@[simp] lemma not_yields_throw {e : Failure} : ¬(throw e : Run α).Yields j a j' := by
  change ¬(Except.error e, j) = _
  simp

@[simp] lemma yields_note {events : Journal} {u : Unit} :
    (note events).Yields j u j' ↔ j ++ events = j' := by
  change (Except.ok PUnit.unit, j ++ events) = _ ↔ _
  simp

@[simp] lemma yields_get {k : Journal} : (get : Run Journal).Yields j k j' ↔ j = k ∧ j = j' := by
  change (Except.ok j, j) = _ ↔ _
  simp

@[simp] lemma yields_ofExcept {r : Except Failure α} :
    (ofExcept r).Yields j a j' ↔ r = .ok a ∧ j = j' := by
  cases r <;> simp [ofExcept]

@[simp] lemma yields_ofFault {r : Except Fault α} :
    (ofFault r).Yields j a j' ↔ r = .ok a ∧ j = j' := by
  cases r <;> simp [ofFault]

end Run

@[simp] lemma Journal.diagnostics_stage (name subject : String) (j : Journal) :
    Journal.diagnostics (.stage name subject :: j) = j.diagnostics := rfl

/-! ### Drafts -/

namespace Catalog

/-- Whether settings ask for listener options. -/
def asksOptions (c : Catalog) (settings : Value) : Except Fault Bool :=
  return wantsOptions c (Value.fieldOf (← settings.orEmpty.pairs?) "ext4_events")

lemma applyRules_standard {c : Catalog} {settings : Value} {e : Enriched}
    (h : applyRules c FrameworkRule.standard settings = .ok e) :
    ∃ options, c.asksOptions settings = .ok options ∧
      e.classes = if options then c.map fun _ r => addOptions r else c := by
  simp only [applyRules, FrameworkRule.standard, List.isEmpty_cons, Bool.false_eq_true, if_false,
    bind_eq_ok, pure_eq_ok] at h
  obtain ⟨ps, hps, rfl⟩ := h
  refine ⟨wantsOptions c (Value.fieldOf ps "ext4_events"), by simp [asksOptions, hps], ?_⟩
  simp only [List.foldl_cons, List.foldl_nil, amendBy, FrameworkRule.listenerOptions,
    addListenerOptions]
  by_cases h : c.wantsOptions (Value.fieldOf ps "ext4_events") <;> simp [h]

lemma diagnostics_amendBy (rule : FrameworkRule) (setting : Value) (e : Enriched) :
    (amendBy rule setting e).journal.diagnostics = e.journal.diagnostics := by
  rw [amendBy]
  cases rule.amend e.classes setting with
  | none => rfl
  | some c =>
    rw [Journal.diagnostics_append]
    exact List.append_nil _

lemma diagnostics_foldl_amendBy (rules : List FrameworkRule) (setting : FrameworkRule → Value)
    (e : Enriched) :
    (rules.foldl (fun e rule => amendBy rule (setting rule) e) e).journal.diagnostics =
      e.journal.diagnostics := by
  induction rules generalizing e with
  | nil => rfl
  | cons rule rules ih => rw [List.foldl_cons, ih, diagnostics_amendBy]

/-- Rules report that they are applied, but no problem. -/
lemma diagnostics_applyRules {c : Catalog} {rules : List FrameworkRule} {settings : Value}
    {e : Enriched} (h : applyRules c rules settings = .ok e) : e.journal.diagnostics = [] := by
  rw [applyRules] at h
  split at h
  · cases h
    rfl
  · obtain ⟨ps, -, h⟩ := bind_eq_ok.1 h
    rw [← pure_eq_ok.1 h]
    exact diagnostics_foldl_amendBy rules (fun rule => Value.fieldOf ps rule.name) _

@[simp] lemma asksOptions_map (c : Catalog) (f : Record → Record) (settings : Value) :
    asksOptions (c.map fun _ r => f r) settings = c.asksOptions settings := by
  have hcontains : (c.map fun _ r => f r).contains "Ext.Base" = c.contains "Ext.Base" := by
    rw [Bool.eq_iff_iff, OrderedMap.contains_iff, OrderedMap.contains_iff, OrderedMap.keys_map]
  simp only [asksOptions, wantsOptions, hcontains]

end Catalog

namespace Batch

open Catalog

variable {s : Settings} {a : Aggregation} {files : List ParsedFile} {d : Draft} {j j' : Journal}
  {p : Prepared}

/-- The draft for what was gathered. -/
def draftOf (s : Settings) (a : Aggregation) : Except Fault Draft := do
  let d : Draft := ⟨a, ← s.ignoresGlobals, false⟩
  return { d with options := ← d.written.asksOptions (← s.frameworkRules) }

/-- The draft for some files. -/
def draft (s : Settings) (files : List ParsedFile) : Except Fault Draft := do
  draftOf s (Aggregation.ofFiles (← s.mergePolicy) files)

@[simp] lemma yields_pass {name : String} {e : Except Fault Enriched} {d : Enriched} :
    (pass name e).Yields j d j' ↔
      e = .ok d ∧ j ++ [.stage "Processing" name] ++ d.journal = j' := by
  simp [pass]

lemma gathers_of_draft (h : draft s files = .ok d) :
    d.gathered.Gathers (files.flatMap ParsedFile.fragments) := by
  simp only [draft, draftOf, bind_eq_ok, pure_eq_ok] at h
  obtain ⟨policy, -, _, -, _, -, _, -, rfl⟩ := h
  exact Aggregation.gathers_ofFiles policy files

/-- A preparation goes through its passes: what is hoisted is enriched, and then overrides are applied. -/
lemma prepare_passes (h : (prepare s a).Yields j p j') :
    ∃ d, draftOf s a = .ok d ∧ d.gathered = a ∧
      ∃ hoisted folded, hoisted = hoistGlobals (dropIgnored a.classes).classes a.orphans d.unwanted ∧
        folded = applyOverrides (hoisted.classes.map fun _ r => r.enrich d.options) ∧
        p = ⟨folded.classes, (dropIgnored a.classes).names ++ folded.names⟩ ∧
        j'.diagnostics =
          j.diagnostics ++ hoisted.journal.diagnostics ++ folded.journal.diagnostics := by
  simp only [prepare, Run.yields_bind, yields_pass, bind_eq_ok, pure_eq_ok, Run.yields_pure,
    Except.ok.injEq] at h
  obtain ⟨_, _, ⟨rfl, rfl⟩, _, _, ⟨⟨unwanted, hunwanted, rfl⟩, rfl⟩, _, _, ⟨rfl, rfl⟩, amended, _,
    ⟨⟨settings, hsettings, hrules⟩, rfl⟩, _, _, ⟨rfl, rfl⟩, _, _, ⟨rfl, rfl⟩, rfl, rfl⟩ := h
  have hquiet := diagnostics_applyRules hrules
  obtain ⟨options, hoptions, hamended⟩ := applyRules_standard hrules
  simp only [addAccessors, asksOptions_map] at hoptions hamended
  refine ⟨⟨a, unwanted, options⟩, by simp [draftOf, hunwanted, hsettings, Draft.written, hoptions],
    rfl, _, _, rfl, rfl, ?_⟩
  have hexpanded : (expandEnumerations amended.classes).classes =
      (Draft.written ⟨a, unwanted, options⟩).map fun _ r => r.enrich options := by
    rw [expandEnumerations, hamended]
    cases options <;> simp only [Bool.false_eq_true, if_true, if_false, OrderedMap.map_map] <;> rfl
  have hdropped : (dropIgnored a.classes).journal.diagnostics = [] := by
    simp [dropIgnored, Journal.diagnostics, Journal.diagnostic?, Function.comp_def]
  rw [Draft.written] at hexpanded
  rw [← hexpanded]
  refine ⟨rfl, ?_⟩
  simp [Journal.diagnostics_append, hdropped, hquiet, addAccessors, expandEnumerations]

lemma prepare_yields (h : (prepare s a).Yields j p j') :
    ∃ d, draftOf s a = .ok d ∧ d.gathered = a ∧ p.classes = d.catalog d.options := by
  obtain ⟨d, hd, rfl, _, _, rfl, rfl, rfl, -⟩ := prepare_passes h
  exact ⟨d, hd, rfl, rfl⟩

lemma aggregate_yields (h : (aggregate s files).Yields j a j') :
    ∃ policy, s.mergePolicy = .ok policy ∧ a = Aggregation.ofFiles policy files ∧
      j' = j ++ a.journal := by
  simp only [aggregate, Run.yields_bind, Run.yields_ofFault, Run.yields_note, Run.yields_pure] at h
  obtain ⟨policy, _, ⟨hpolicy, rfl⟩, _, _, rfl, rfl, rfl⟩ := h
  exact ⟨policy, hpolicy, rfl, rfl⟩

/-- The catalog that is prepared of what was gathered is that of the draft. -/
lemma aggregate_prepare_yields (h : (aggregate s files >>= prepare s).Yields j p j') :
    ∃ d, draft s files = .ok d ∧ p.classes = d.catalog d.options := by
  obtain ⟨a, _, ha, hp⟩ := Run.yields_bind.1 h
  obtain ⟨policy, hpolicy, rfl, -⟩ := aggregate_yields ha
  obtain ⟨d, hd, -, hclasses⟩ := prepare_yields hp
  exact ⟨d, by simp [draft, hpolicy, hd], hclasses⟩

/-! ### Graphs -/

variable {g g' : ClassGraph} {external : List Scalar}

lemma build_yields (h : (build external p).Yields j g j') :
    ∃ names, Scalar.sorted (Scalar.distinct (external ++ p.removed.map .text)) = .ok names ∧
      graphOf p.classes names = .ok g ∧ j' = j ++ [.stage "Building" "relations"] := by
  simp only [build, Run.yields_bind, Run.yields_ofExcept, Run.yields_ofFault, Run.yields_note] at h
  obtain ⟨_, _, rfl, names, _, ⟨hnames, rfl⟩, hg, rfl⟩ := h
  exact ⟨names, hnames, hg, rfl⟩

lemma settleVersions_eq_ok {o : ClassGraph.VersionOptions} (h : g.settleVersions o = .ok g') :
    g' = g.withVersions o := by
  rw [ClassGraph.settleVersions] at h
  split at h
  · obtain ⟨_, -, h⟩ := bind_eq_ok.1 h
    exact (pure_eq_ok.1 h).symm
  · exact (pure_eq_ok.1 h).symm

/-- Flaws are reported behind what was reported before. -/
lemma reportFlaws_yields {ds : List Diagnostic} :
    (reportFlaws s g).Yields j ds j' ↔
      ∃ options, s.lint = .ok options ∧ g.lint options j.diagnostics = ds ∧ j ++ ds.map .warning = j' := by
  simp only [reportFlaws, Run.yields_bind, Run.yields_ofFault, Run.yields_get, Run.yields_note, Run.yields_pure]
  constructor
  · rintro ⟨options, _, ⟨hoptions, rfl⟩, _, _, ⟨rfl, rfl⟩, _, _, rfl, rfl, rfl⟩
    exact ⟨options, hoptions, rfl, rfl⟩
  · rintro ⟨options, hoptions, rfl, rfl⟩
    exact ⟨options, j, ⟨hoptions, rfl⟩, j, j, ⟨rfl, rfl⟩, (), _, rfl, rfl, rfl⟩

/-- A graph is resolved in four steps, and then flaws are looked for, given what was reported before. -/
lemma resolve_steps (h : (resolve s g).Yields j g' j') :
    ∃ o options j₁, g' = (g.cutCycles.1.inheritDocs.1.withVersions o).settleReturns ∧
      s.lint = .ok options ∧ (∀ e ∈ g.cutCycles.1.inheritDocs.2, e ∈ j₁) ∧
      j' = j ++ j₁ ++
        .stage "Resolving" "lint" :: (g'.lint options (j ++ j₁).diagnostics).map .warning := by
  simp only [resolve, resolving, Run.yields_bind, Run.yields_ofFault, Run.yields_note, reportFlaws_yields,
    Run.yields_pure] at h
  obtain ⟨_, _, rfl, _, _, rfl, _, _, rfl, _, _, rfl, _, _, rfl, o, _, ⟨-, rfl⟩, _, _, ⟨hversions, rfl⟩,
    _, _, rfl, _, _, rfl, _, _, ⟨options, hoptions, rfl, rfl⟩, rfl, rfl⟩ := h
  obtain rfl := settleVersions_eq_ok hversions
  refine ⟨o, options, [.stage "Resolving" "circular dependencies"] ++ g.cutCycles.2 ++
    [.stage "Resolving" "inherited docs"] ++ g.cutCycles.1.inheritDocs.2 ++
    [.stage "Resolving" "versions"] ++ [.stage "Resolving" "return values"], rfl, hoptions,
    fun e he => by simp [he], ?_⟩
  simp [Journal.diagnostics_append]

/-- What inheriting reports stays in the journal. -/
lemma resolve_yields (h : (resolve s g).Yields j g' j') :
    (∃ o, g' = (g.cutCycles.1.inheritDocs.1.withVersions o).settleReturns) ∧
      ∀ e ∈ g.cutCycles.1.inheritDocs.2, e ∈ j' := by
  obtain ⟨o, _, j₁, hg, -, hreports, rfl⟩ := resolve_steps h
  exact ⟨⟨o, hg⟩, fun e he => by simp [hreports e he]⟩

variable {b : Batch} {parser : Parser} {schedule : Parser.Schedule}

/-- A batch goes through its stages. -/
lemma resolved_steps (h : (b.resolved parser schedule).Yields j g j') :
    ∃ files j₁ a j₂ p j₃ g₀ j₄ j₅, (b.parse parser schedule).Yields j files j₁ ∧
      (aggregate b.settings files).Yields j₁ a j₂ ∧ (prepare b.settings a).Yields j₂ p j₃ ∧
      (build b.external p).Yields j₃ g₀ j₄ ∧ (resolve b.settings g₀).Yields j₄ g j₅ ∧
      j' = j₅ ++ [.resolved g.classes.length j₅.diagnostics.length] := by
  simp only [resolved, Run.yields_bind, Run.yields_note, Run.yields_get, Run.yields_pure] at h
  obtain ⟨files, j₁, hfiles, a, j₂, ha, p, j₃, hp, g₀, j₄, hg₀, _, j₅, hg, _, _, ⟨rfl, rfl⟩, _, _, rfl,
    rfl, rfl⟩ := h
  exact ⟨files, j₁, a, j₂, p, j₃, g₀, j₄, j₅, hfiles, ha, hp, hg₀, hg, rfl⟩

/-- A graph that is resolved is built of the catalog of the draft. -/
lemma resolved_yields (h : (b.resolved parser schedule).Yields j g j') :
    ∃ files j₁, (b.parse parser schedule).Yields j files j₁ ∧
      ∃ d, draft b.settings files = .ok d ∧
        ∃ names g₀, graphOf (d.catalog d.options) names = .ok g₀ ∧
          (∃ o, g = (g₀.cutCycles.1.inheritDocs.1.withVersions o).settleReturns) ∧
          ∀ e ∈ g₀.cutCycles.1.inheritDocs.2, e ∈ j' := by
  obtain ⟨files, j₁, a, _, p, _, g₀, _, _, hfiles, ha, hp, hg₀, hg, rfl⟩ := resolved_steps h
  obtain ⟨d, hd, hclasses⟩ := aggregate_prepare_yields (Run.yields_bind.2 ⟨a, _, ha, hp⟩)
  obtain ⟨names, -, hnames, -⟩ := build_yields hg₀
  obtain ⟨hresolved, hreports⟩ := resolve_yields hg
  exact ⟨files, j₁, hfiles, d, hd, names, g₀, hclasses ▸ hnames, hresolved, fun e he =>
    List.mem_append_left _ (hreports e he)⟩

end Batch

end DocGraph
