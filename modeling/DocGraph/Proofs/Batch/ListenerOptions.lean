import DocGraph.Proofs.Batch.Resolved
import DocGraph.Proofs.Catalog.Placement

/-!
# Parameters of inherited events

An event that takes over documentation takes over parameters only if it has none. Without listener
options it then ends up with those of its source, unless the source was being settled at the time, which
is reported. With listener options an event never has no parameters by then: one that is written without
any keeps the options as its only one, whatever its source has.
-/

namespace DocGraph

open Catalog Fragment Record Inheriting

/-! ### What is taken over -/

namespace Follows

variable {g : ClassGraph} {f f' : Fragment} {m s : Member}

/-- A member with parameters keeps them. -/
lemma params_eq (h : Follows g f m) (hf : f.params ≠ []) : m.params = f.params := by
  obtain ⟨m', -, hagrees, rfl | ⟨src, rfl, -⟩⟩ := h.exists_agrees
  · exact hagrees.params_eq
  · rw [hagrees.params_eq]
    simp [Member.inherit, Member.ofFragment, hf]

/-- A member without parameters takes over those of its source, if no call for the source while it was
being settled is reported. -/
lemma params_eq_source (h : Follows g f m) (hs : Follows g f' s) (hf : f.params = [])
    (hfrom : m.inheritedFrom = some s.ref)
    (hreport : .warning s.circularDiagnostic ∉ g.inheritDocs.2) : m.params = s.params := by
  obtain ⟨m', -, hagrees, rfl | ⟨src, rfl, horigin⟩⟩ := h.exists_agrees
  · simp [hagrees.inheritedFrom_eq, Member.ofFragment] at hfrom
  · have href : src.ref = s.ref := by
      simpa [hagrees.inheritedFrom_eq, Member.inherit] using hfrom
    rcases horigin with ⟨-, hsrc⟩ | ⟨m₀, hm₀, hr, hwarn⟩
    · -- the source has not changed since
      obtain ⟨s', hs', hsagrees, -⟩ := hs.exists_agrees
      have hat : g.inheritDocs.1.memberAt? s'.ref = some src := by
        rw [← hsagrees.ref_eq, ← href]
        exact hsrc
      obtain rfl : s' = src := Option.some_inj.1 (hs'.symm.trans hat)
      rw [hagrees.params_eq, hsagrees.params_eq]
      simp [Member.inherit, Member.ofFragment, hf]
    · obtain rfl := hs.hasMember.unique hm₀ (hr.trans href)
      exact absurd (hs.circularDiagnostic_eq ▸ hwarn) hreport

end Follows

/-! ### Options -/

variable {f : Fragment}

lemma params_amend_ne_nil (hf : f.subject = .member .event) : (amend true f).params ≠ [] := by
  rw [params_amend_of_event hf]
  split
  · next h =>
    intro h'
    simp [h'] at h
  · simp

/-- An event has the options as its only parameter if it is written without any, or with just them. -/
lemma params_amend_eq_singleton_iff (hf : f.subject = .member .event) :
    (amend true f).params = [optionsParam] ↔ f.params = [] ∨ f.params = [optionsParam] := by
  rw [params_amend_of_event hf]
  split
  · next h =>
    have hne : f.params ≠ [] := fun h' => by simp [h'] at h
    simp [hne]
  · next h =>
    have hne : f.params ≠ [optionsParam] := fun h' => by simp [h'] at h
    simp [hne]

/-! ### Events -/

namespace Batch

variable {b : Batch} {parser : Parser} {schedule : Parser.Schedule} {g : ClassGraph} {j : Journal}

/-- A member of a resolved graph is that of a fragment of the catalog without options, amended. -/
lemma exists_follows_amended {fs : List Fragment} {d : Draft} {external : List Scalar}
    {g₀ : ClassGraph} {o : ClassGraph.VersionOptions} {m : Member} (hd : d.gathered.Gathers fs)
    (hg : graphOf (d.catalog d.options) external = .ok g₀)
    (hm : (g₀.cutCycles.1.inheritDocs.1.withVersions o).settleReturns.HasMember m) :
    ∃ f, (d.catalog false).member? m.ref = some f ∧
      Follows g₀.cutCycles.1 (amend d.options f) m := by
  have hn := Draft.isNamed_written hd
  obtain ⟨_, hf, hfollows⟩ := Follows.exists_follows (d.isNamed_catalog hn d.options) hg hm
  rw [Draft.member?_catalog hn, Option.map_eq_some_iff] at hf
  obtain ⟨f, hf, rfl⟩ := hf
  exact ⟨f, hf, hfollows⟩

/-- An event that is written without parameters and takes over documentation from another event. Without
listener options it ends up with the parameters of its source, unless a call for the source while it was
being settled is reported. With listener options it does so only if the source is written without
parameters as well, or with just the options. -/
theorem resolved_event_params (h : (b.resolved parser schedule).finish = (.ok g, j)) :
    ∃ files j' d, (b.parse parser schedule).finish = (.ok files, j') ∧
      draft b.settings files = .ok d ∧
        ∀ m s, g.HasMember m → g.HasMember s → m.kind = .event → s.kind = .event →
          m.inheritedFrom = some s.ref →
            ∃ f f', (d.catalog false).member? m.ref = some f ∧
              (d.catalog false).member? s.ref = some f' ∧ (f.params = [] →
                (d.options = false → .warning s.circularDiagnostic ∉ j → m.params = s.params) ∧
                (d.options = true →
                  (m.params = s.params ↔ f'.params = [] ∨ f'.params = [optionsParam]))) := by
  obtain ⟨files, j', hfiles, d, hd, names, g₀, hg₀, ⟨o, hresolved⟩, hreports⟩ :=
    resolved_yields (Run.finish_eq_iff.1 h)
  refine ⟨files, j', d, hfiles, hd, fun m s hm hs hkind hskind hfrom => ?_⟩
  have hg := gathers_of_draft hd
  obtain ⟨f, hf, hmf⟩ := exists_follows_amended hg hg₀ (hresolved ▸ hm)
  obtain ⟨f', hf', hsf⟩ := exists_follows_amended hg hg₀ (hresolved ▸ hs)
  refine ⟨f, f', hf, hf', fun hparams => ⟨fun hoff hreport => ?_, fun hon => ?_⟩⟩
  · rw [hoff] at hmf hsf
    exact hmf.params_eq_source hsf hparams hfrom fun hwarn => hreport (hreports _ hwarn)
  · rw [hon] at hmf hsf
    have hevent : f.subject = .member .event :=
      hkind ▸ Fragment.subject_of_key? (Draft.key?_of_catalog hg hf)
    have hevent' : f'.subject = .member .event :=
      hskind ▸ Fragment.subject_of_key? (Draft.key?_of_catalog hg hf')
    rw [hmf.params_eq (params_amend_ne_nil hevent), hsf.params_eq (params_amend_ne_nil hevent'),
      (params_amend_eq_singleton_iff hevent).2 (.inl hparams), eq_comm,
      params_amend_eq_singleton_iff hevent']

/-- An event of a class, and the same event of a subclass, where only its name is written. -/
def showing : Parser := fun _ => .ok [
  { subject := .cls, name := "Base" },
  { subject := .member .event, name := "show", owner := some "Base", doc := "Fires.",
    params := [{ name := "me", doc := "It." }] },
  { subject := .cls, name := "Sub", parent := some "Base" },
  { subject := .member .event, name := "show", owner := some "Sub" }]

/-- The settings that ask for listener options or not. -/
def showingSettings (options : Bool) : Settings :=
  ⟨.map [(.text "framework_quirks", .map [(.text "ext4_events", .bool options)]),
    (.text "lint", .map [(.text "param_docs", .bool false)])]⟩

/-- The batch of one file with these settings. -/
def showingBatch (options : Bool) : Batch where
  files := ["base.yml"]
  settings := showingSettings options
  external := []

/-- The event of the class after all passes. -/
def baseEvent (options : Bool) : Member where
  ref := ⟨"Base", .event, "show"⟩
  doc := "Fires."
  params := { name := "me", doc := "It." } :: if options then [optionsParam] else []

/-- The event of the subclass after all passes. -/
def subEvent (options : Bool) : Member where
  ref := ⟨"Sub", .event, "show"⟩
  params := if options then [optionsParam] else []

/-- The graph that is built of these events. -/
def showingGraph (options : Bool) : ClassGraph where
  classes := [
    { name := "Base"
      members := ⟨[(⟨.event, "show"⟩, baseEvent options)], List.nodup_singleton _⟩
      located := by simp [baseEvent] },
    { name := "Sub"
      parent := some "Base"
      members := ⟨[(⟨.event, "show"⟩, subEvent options)], List.nodup_singleton _⟩
      located := by simp [subEvent] }]
  distinct := show ["Base", "Sub"].Nodup by decide

/-- The run up to this graph. -/
def showingBuild (options : Bool) : Run ClassGraph := do
  let files ← (showingBatch options).parse showing []
  build [] (← prepare (showingSettings options) (← aggregate (showingSettings options) files))

/-- The graph after all steps. No versions are settled by these settings. -/
def shownGraph (options : Bool) : ClassGraph :=
  ((showingGraph options).inheritDocs.1.withVersions ⟨.null, .null⟩).settleReturns

lemma showingBuild_yields (options : Bool) :
    (showingBuild options).Yields [] (showingGraph options) (showingBuild options).finish.2 := by
  cases options <;> with_unfolding_all rfl

lemma cutCycles_showingGraph (options : Bool) :
    (showingGraph options).cutCycles = (showingGraph options, []) := by
  cases options <;> cbv

lemma exists_resolve_yields (options : Bool) :
    ∃ j, (resolve (showingSettings options) (showingGraph options)).Yields
      (showingBuild options).finish.2 (shownGraph options) j ∧ j.diagnostics = [] := by
  -- the search for cycles is no structural recursion, so it is not run together with the other steps
  refine ⟨((resolve (showingSettings options) (showingGraph options)).finishAfter
    (showingBuild options).finish.2).2, ?_, ?_⟩
  · simp only [Run.Yields, resolve, cutCycles_showingGraph]
    cases options <;> with_unfolding_all rfl
  · simp only [resolve, cutCycles_showingGraph]
    cases options <;> decide +kernel

/-- The batch is resolved without reports. -/
lemma exists_finish_resolved_showing (options : Bool) :
    ∃ j, ((showingBatch options).resolved showing []).finish = (.ok (shownGraph options), j) ∧
      j.diagnostics = [] := by
  have hbuild := showingBuild_yields options
  obtain ⟨j, hresolve, hquiet⟩ := exists_resolve_yields options
  simp only [showingBuild, Run.yields_bind] at hbuild
  obtain ⟨files, j₁, hfiles, a, j₂, ha, p, j₃, hp, hg⟩ := hbuild
  refine ⟨j ++ [.resolved (shownGraph options).classes.length j.diagnostics.length], ?_, ?_⟩
  · rw [Run.finish_eq_iff]
    simp only [resolved, Run.yields_bind, Run.yields_get, Run.yields_note, Run.yields_pure]
    exact ⟨files, j₁, hfiles, a, j₂, ha, p, j₃, hp, _, _, hg, _, j, hresolve, _, _, ⟨rfl, rfl⟩, (), _, rfl,
      rfl, rfl⟩
  · rw [Journal.diagnostics_append, hquiet]
    rfl

/-- The event of the subclass takes over documentation. -/
lemma hasMember_shownGraph (options : Bool) :
    (shownGraph options).HasMember (baseEvent options) ∧
      (shownGraph options).HasMember ((subEvent options).inherit (baseEvent options)) := by
  cases options <;> constructor <;> with_unfolding_all rfl

/-- With listener options the event of the subclass does not get the parameters of its source. -/
theorem not_resolved_event_params :
    ¬∀ b parser schedule g j files j' d, (Batch.resolved b parser schedule).finish = (.ok g, j) →
      (Batch.parse b parser schedule).finish = (.ok files, j') → draft b.settings files = .ok d →
        ∀ m s f, g.HasMember m → g.HasMember s → m.kind = .event → s.kind = .event →
          m.inheritedFrom = some s.ref → (d.catalog false).member? m.ref = some f → f.doc = "" →
            f.params = [] → m.params = s.params := by
  intro h
  obtain ⟨j, hfin, -⟩ := exists_finish_resolved_showing true
  obtain ⟨hbase, hsub⟩ := hasMember_shownGraph true
  have hsame := h (showingBatch true) showing [] _ j _ _ _ hfin rfl rfl _ _
    { subject := .member .event, name := "show", owner := some "Sub" } hsub hbase rfl rfl rfl rfl rfl rfl
  exact absurd (congrArg List.length hsame) (by decide)

/-- Without listener options it does. -/
theorem resolved_event_params_showing :
    ∃ g j m s, ((showingBatch false).resolved showing []).finish = (.ok g, j) ∧
      g.HasMember m ∧ g.HasMember s ∧ m.inheritedFrom = some s.ref ∧
      .warning s.circularDiagnostic ∉ j ∧ m.params = s.params ∧
      s.params = [{ name := "me", doc := "It." }] := by
  obtain ⟨j, hfin, hquiet⟩ := exists_finish_resolved_showing false
  obtain ⟨hbase, hsub⟩ := hasMember_shownGraph false
  have hreport : .warning (baseEvent false).circularDiagnostic ∉ j := by
    intro hwarn
    have hmem := Journal.mem_diagnostics.2 hwarn
    simp [hquiet] at hmem
  obtain ⟨files, j', d, hfiles, hd, hparams⟩ := resolved_event_params hfin
  obtain ⟨f, f', hf, -, hcase⟩ := hparams _ _ hsub hbase rfl rfl rfl
  cases hfiles
  cases hd
  cases hf
  exact ⟨_, j, _, _, hfin, hsub, hbase, rfl, hreport, (hcase rfl).1 rfl hreport, rfl⟩

end Batch

end DocGraph
