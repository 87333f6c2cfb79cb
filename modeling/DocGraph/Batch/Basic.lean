import DocGraph.Batch.Parsing
import DocGraph.Catalog.Accessors
import DocGraph.Catalog.Enumerations
import DocGraph.Catalog.FrameworkRule
import DocGraph.Catalog.Ignored
import DocGraph.Catalog.Overrides
import DocGraph.Graph.Cycles
import DocGraph.Graph.Inheritance
import DocGraph.Graph.SelfReturns

/-!
# Batches

A batch is a row of files whose documentation is resolved together. Its files are parsed, their
fragments are gathered into a catalog, the catalog is prepared by several passes, a graph is built of
it, and the graph is resolved. The names of classes that a pass has removed are external from then on.
-/

namespace DocGraph

/-- Files, and the settings under which they are resolved. -/
structure Batch where
  files : List String
  settings : Settings
  /-- The names that are external from the start. -/
  external : List Scalar
  /-- The number of workers that was asked for. -/
  asked : Option Int := none
  /-- The number of workers that there are if nothing is said. -/
  available : Nat := 1

namespace Batch

/-- The batch of some files. -/
def ofFiles (files : List String) (settings : Settings) (asked : Option Int) (available : Nat) :
    Except Fault Batch :=
  return { files, settings, external := ← settings.externalNames, asked, available }

/-! ### Catalogs -/

/-- Parse the files, who finish as the schedule says. -/
def parse (b : Batch) (parser : Parser) (schedule : Parser.Schedule) : Run (List ParsedFile) :=
  parser.parseAll b.files (b.settings.workers b.asked b.available) schedule

/-- Gather the fragments of all files. -/
def aggregate (s : Settings) (files : List ParsedFile) : Run Aggregation := do
  let a := Aggregation.ofFiles (← Run.ofFault s.mergePolicy) files
  Run.note a.journal
  return a

/-- Go through one pass over a catalog. -/
def pass (name : String) (e : Except Fault Catalog.Enriched) : Run Catalog.Enriched := do
  Run.note [.stage "Processing" name]
  let e ← Run.ofFault e
  Run.note e.journal
  return e

/-- A catalog after all passes, and the names that have become external by them. -/
structure Prepared where
  classes : Catalog
  removed : List String

/-- Prepare a catalog for the graph. -/
def prepare (s : Settings) (a : Aggregation) : Run Prepared := do
  let kept ← pass "ignored classes" (.ok (Catalog.dropIgnored a.classes))
  let hoisted ← pass "global members"
    (return Catalog.hoistGlobals kept.classes a.orphans (← s.ignoresGlobals))
  let supplied ← pass "accessors" (.ok (Catalog.addAccessors hoisted.classes))
  let amended ← pass "framework quirks"
    (do Catalog.applyRules supplied.classes FrameworkRule.standard (← s.frameworkRules))
  let expanded ← pass "enums" (.ok (Catalog.expandEnumerations amended.classes))
  let folded ← pass "overrides" (.ok (Catalog.applyOverrides expanded.classes))
  return ⟨folded.classes, kept.names ++ folded.names⟩

/-! ### Graphs -/

/-- The names in a set of scalars that is in order, and its other members. -/
def namesAndOthers (xs : List Scalar) : List String × List Scalar :=
  (xs.filterMap Scalar.text?, xs.filter fun s => s.text?.isNone)

/-- The graph of a catalog. -/
def graphOf (c : Catalog) (external : List Scalar) : Except Failure ClassGraph :=
  let (names, others) := namesAndOthers external
  (ClassGraph.ofClasses (c.values.map DocClass.ofRecord) names others).mapError .duplicateClass

/-- Build the graph of a prepared catalog. -/
def build (external : List Scalar) (p : Prepared) : Run ClassGraph := do
  Run.note [.stage "Building" "relations"]
  let all := Scalar.distinct (external ++ p.removed.map Scalar.text)
  Run.ofExcept (graphOf p.classes (← Run.ofFault (Scalar.sorted all)))

/-- Report what is resolved next. -/
def resolving (what : String) : Run Unit := Run.note [.stage "Resolving" what]

/-- Look for flaws of a graph, and report those that are found. -/
def reportFlaws (s : Settings) (g : ClassGraph) : Run (List Diagnostic) := do
  let options ← Run.ofFault s.lint
  let flaws := g.lint options (Journal.diagnostics (← get))
  Run.note (flaws.map .warning)
  return flaws

/-- Resolve a graph. -/
def resolve (s : Settings) (g : ClassGraph) : Run ClassGraph := do
  resolving "circular dependencies"
  let (g, journal) := g.cutCycles
  Run.note journal
  resolving "inherited docs"
  let (g, journal) := g.inheritDocs
  Run.note journal
  resolving "versions"
  let g ← Run.ofFault (g.settleVersions (← Run.ofFault s.versions))
  resolving "return values"
  let g := g.settleReturns
  resolving "lint"
  let _ ← reportFlaws s g
  return g

/-- Resolve the documentation of a batch. -/
def resolved (b : Batch) (parser : Parser) (schedule : Parser.Schedule) : Run ClassGraph := do
  let files ← b.parse parser schedule
  let prepared ← prepare b.settings (← aggregate b.settings files)
  let g ← resolve b.settings (← build b.external prepared)
  Run.note [.resolved g.classes.length (Journal.diagnostics (← get)).length]
  return g

end Batch

end DocGraph
