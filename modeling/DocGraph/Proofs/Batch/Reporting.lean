import DocGraph.Proofs.Batch.Frame
import DocGraph.Proofs.Batch.Parsing
import DocGraph.Proofs.Batch.Resolved
import DocGraph.Proofs.Catalog.Shadowing

/-!
# Reports about resolved batches

By the time a batch is searched for flaws, every definition that was replaced has been reported, wherever
that happened. So a replaced definition is never a flaw as well.
-/

namespace DocGraph

open Catalog

namespace Batch

variable {b : Batch} {parser : Parser} {schedule : Parser.Schedule} {g g₀ : ClassGraph}
  {s : Settings} {files : List ParsedFile} {a : Aggregation} {p : Prepared} {j j' : Journal}
  {external : List Scalar} {ds : List Diagnostic}

lemma isReported_aggregate (hj : j.diagnostics = []) (h : (aggregate s files).Yields j a j') :
    a.classes.IsReported j'.diagnostics := by
  obtain ⟨policy, -, rfl, rfl⟩ := aggregate_yields h
  rw [Journal.diagnostics_append, hj, List.nil_append]
  exact .ofGathered (Aggregation.isReported_ofFiles policy files)

/-- All passes together report what they add to the shadowed definitions. -/
lemma isReported_prepare (ha : a.classes.IsReported j.diagnostics)
    (h : (prepare s a).Yields j p j') : p.classes.IsReported j'.diagnostics := by
  obtain ⟨d, -, -, hoisted, folded, rfl, rfl, rfl, hj'⟩ := prepare_passes h
  have hhoisted := ha.dropIgnored.hoistGlobals a.orphans d.unwanted
  have henriched := hhoisted.map (Record.enrich d.options) (Record.name_enrich d.options) fun r => by
    obtain ⟨_, _, hr⟩ := r.enrich_eq d.options
    rw [hr]
  rw [hj']
  exact henriched.applyOverrides

/-- The classes of a built graph have shadowed what the records of the catalog have. -/
lemma covers_of_graphOf {c : Catalog} (h : c.IsReported ds) (hg : graphOf c external = .ok g₀)
    {cls : DocClass} (hcls : cls ∈ g₀.classes) :
    Lint.Covers (Lint.reported ds) cls.name cls.shadowed := by
  rw [classes_of_graphOf hg] at hcls
  obtain ⟨r, hr, rfl⟩ := List.mem_map.1 hcls
  exact h.records r.name r (h.named.get?_name hr)

/-- By the time flaws are looked for, all shadowed definitions of a resolved graph have been reported. -/
lemma exists_flaws (h : (b.resolved parser schedule).Yields [] g j) :
    ∃ (options : LintOptions) (before : Journal) (flaws : List Diagnostic),
      b.settings.lint = .ok options ∧ flaws = g.lint options before.diagnostics ∧
      j = before ++ .stage "Resolving" "lint" :: flaws.map .warning ++
        [.resolved g.classes.length (before.diagnostics ++ flaws).length] ∧
      ∀ c ∈ g.classes, Lint.Covers (Lint.reported before.diagnostics) c.name c.shadowed := by
  obtain ⟨files, j₁, a, j₂, p, j₃, g₀, j₄, j₅, hfiles, ha, hp, hg₀, hg, rfl⟩ := resolved_steps h
  have hquiet := isQuiet_parse b parser schedule []
  rw [hfiles] at hquiet
  have hprepared := isReported_prepare (isReported_aggregate hquiet ha) hp
  obtain ⟨names, -, hgraph, rfl⟩ := build_yields hg₀
  obtain ⟨o, options, j₄, hresolved, hoptions, -, rfl⟩ := resolve_steps hg
  refine ⟨options, j₃ ++ [.stage "Building" "relations"] ++ j₄, _, hoptions, rfl, ?_, ?_⟩
  · simp [Journal.diagnostics_append]
  · intro c hc
    -- what the class has shadowed is what it had shadowed when the graph was built
    have hframe := ClassGraph.SameFrame.resolved g₀ o
    rw [← hresolved] at hframe
    obtain ⟨c₀, hc₀, hname, -, hshadowed⟩ := hframe.exists_class hc
    rw [hname, hshadowed, List.append_assoc, Journal.diagnostics_append]
    exact (covers_of_graphOf hprepared hgraph hc₀).append _

/-- Every definition that was replaced is reported, and none is reported twice: of the definitions that a
class has shadowed, no more have a name than reports about the class and the name, and no flaw that is
found says that something is a duplicate. -/
theorem resolved_reports_every_duplicate (h : (b.resolved parser schedule).finish = (.ok g, j)) :
    (∀ c ∈ g.classes, ∀ n,
      (c.shadowed.filter fun f => f.name = n).length ≤
        (j.diagnostics.filter fun d =>
          d.kind = .duplicateDefinition ∧ d.cls = some c.name ∧ d.member = some n).length) ∧
    ∃ (options : LintOptions) (before : Journal) (flaws : List Diagnostic),
      b.settings.lint = .ok options ∧ flaws = g.lint options before.diagnostics ∧
      j = before ++ .stage "Resolving" "lint" :: flaws.map .warning ++
        [.resolved g.classes.length (before.diagnostics ++ flaws).length] ∧
      ∀ d ∈ flaws, ∀ (subject : Subject) (rest : String),
        d.message ≠ "Duplicate " ++ subject.name ++ " " ++ rest := by
  obtain ⟨options, before, flaws, hoptions, hflaws, hj, hcovers⟩ := exists_flaws (Run.finish_eq_iff.1 h)
  constructor
  · intro c hc n
    have hlater := (hcovers c hc).append flaws n
    have hdiagnostics : j.diagnostics = before.diagnostics ++ flaws := by
      rw [hj, Journal.diagnostics_append, Journal.diagnostics_append, Journal.diagnostics_stage,
        Journal.diagnostics_warnings]
      exact List.append_nil _
    rw [hdiagnostics, ← Lint.count_reported, ← List.countP_eq_length_filter]
    rw [List.count, List.countP_map] at hlater
    exact hlater
  · refine ⟨options, before, flaws, hoptions, hflaws, hj, ?_⟩
    intro d hd subject rest hmessage
    rw [hflaws] at hd
    exact ClassGraph.not_saysDuplicate_of_mem_lint hcovers hd ⟨subject, rest, hmessage⟩

/-- A method of a class is written twice and overridden, and a global one is written twice. -/
def repeating : Parser := fun _ => .ok [
  { subject := .cls, name := "Base" },
  { subject := .member .method, name := "show", owner := some "Base" },
  { subject := .member .method, name := "show", owner := some "Base" },
  { subject := .cls, name := "Patch", overrides := some "Base" },
  { subject := .member .method, name := "show", owner := some "Patch" },
  { subject := .member .method, name := "log" },
  { subject := .member .method, name := "log" }]

/-- The batch of one file with these methods. -/
def repeatingBatch : Batch where
  files := ["base.yml"]
  settings := .empty
  external := []

/-- The graph that is built of these methods. -/
def repeatingBuild : Run ClassGraph := do
  let files ← repeatingBatch.parse repeating []
  build [] (← prepare .empty (← aggregate .empty files))

/-- The number of definitions of a name that a class in it has shadowed. -/
def repetitions (cls name : String) : Option Nat := do
  let c ← (← repeatingBuild.finish.1.toOption).find? cls
  return (c.shadowed.filter fun f => f.name = name).length

lemma exists_repetitions {g₀ : ClassGraph} {j : Journal} {cls name : String} {n : Nat}
    (h : repeatingBuild.Yields [] g₀ j) (hframe : g₀.SameFrame g)
    (hn : repetitions cls name = some n) :
    ∃ c ∈ g.classes, (c.shadowed.filter fun f => f.name = name).length = n := by
  simp only [repetitions, Run.finish_eq_iff.2 h, Except.toOption, Option.bind_eq_bind, Option.bind_some, Option.pure_def,
    Option.bind_eq_some_iff, Option.some_inj] at hn
  obtain ⟨c₀, hc₀, hcount⟩ := hn
  obtain ⟨c, hc, -, -, hshadowed⟩ := hframe.symm.exists_class (ClassGraph.mem_classes_of_find? hc₀)
  exact ⟨c, hc, hshadowed ▸ hcount⟩

theorem resolved_reports_every_duplicate_repeating :
    ∃ g j c c', (repeatingBatch.resolved repeating []).finish = (.ok g, j) ∧
      c ∈ g.classes ∧ c' ∈ g.classes ∧
      2 ≤ (j.diagnostics.filter fun d =>
        d.kind = .duplicateDefinition ∧ d.cls = some c.name ∧ d.member = some "show").length ∧
      1 ≤ (j.diagnostics.filter fun d =>
        d.kind = .duplicateDefinition ∧ d.cls = some c'.name ∧ d.member = some "log").length := by
  have hshow : repetitions "Base" "show" = some 2 := by decide +kernel
  have hlog : repetitions globalName "log" = some 1 := by decide +kernel
  have hends : (repeatingBatch.resolved repeating []).finish.1.toOption.isSome = true := by
    decide +kernel
  rcases hfin : (repeatingBatch.resolved repeating []).finish with ⟨e | g, j⟩
  · simp [hfin, Except.toOption] at hends
  · obtain ⟨files, j₁, a, j₂, p, j₃, g₀, j₄, j₅, hfiles, ha, hp, hg₀, hg, -⟩ :=
      resolved_steps (Run.finish_eq_iff.1 hfin)
    have hbuild : repeatingBuild.Yields [] g₀ j₄ := by
      simp only [repeatingBuild, Run.yields_bind]
      exact ⟨files, j₁, hfiles, a, j₂, ha, p, j₃, hp, hg₀⟩
    obtain ⟨⟨o, rfl⟩, -⟩ := resolve_yields hg
    have hframe := ClassGraph.SameFrame.resolved g₀ o
    obtain ⟨c, hc, hcount⟩ := exists_repetitions hbuild hframe hshow
    obtain ⟨c', hc', hcount'⟩ := exists_repetitions hbuild hframe hlog
    have hreports := (resolved_reports_every_duplicate hfin).1 c hc "show"
    have hreports' := (resolved_reports_every_duplicate hfin).1 c' hc' "log"
    rw [hcount] at hreports
    rw [hcount'] at hreports'
    exact ⟨_, j, c, c', rfl, hc, hc', hreports, hreports'⟩

end Batch

end DocGraph
