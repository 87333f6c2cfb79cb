import DocGraph.Catalog.Basic
import DocGraph.Json

/-!
# Reports

A report lists the diagnostics of a run and counts them by kind and by class.
-/

namespace DocGraph

/-! ### Counts -/

/-- A text and how often it occurs. -/
structure Tally where
  text : String
  count : Nat
  deriving DecidableEq, Repr

namespace Tally

/-- The texts of a list, each with its count, in the order of first occurrence. -/
def ofTexts (xs : List String) : List Tally := (appendNew [] xs).map fun x => ⟨x, xs.count x⟩

/-- Whether one text may stand before another one by the order of texts. -/
def byText (a b : Tally) : Bool := decide (a.text ≤ b.text)

/-- Whether one text may stand before another one by falling count. Of texts of one count the order of
texts decides. -/
def byCount (a b : Tally) : Bool := decide (b.count < a.count) || (a.count == b.count && a.byText b)

end Tally

/-! ### Reports -/

/-- What a report tells. -/
structure Report where
  configHash : String
  schemaVersion : Int := 1
  diagnostics : List Diagnostic := []

/-- When a report was written and how long the work took, in seconds. -/
structure Clock where
  timestamp : Float := 0
  duration : Float := 0

namespace Report

/-- A report that tells of some more diagnostics. -/
def add (r : Report) (ds : List Diagnostic) : Report := { r with diagnostics := r.diagnostics ++ ds }

/-- How many classes are listed as most affected. -/
def affectedLimit : Nat := 10

/-- The kinds of diagnostics with their counts, in rising order. -/
def kindCounts (r : Report) : List Tally :=
  (Tally.ofTexts (r.diagnostics.map (·.kind.name))).mergeSort Tally.byText

/-- The names of the classes that the diagnostics are about. -/
def affected (r : Report) : List String :=
  (r.diagnostics.filterMap (·.cls)).filter fun n => !n.isEmpty

/-- The classes that most diagnostics are about. -/
def mostAffected (r : Report) : List Tally :=
  ((Tally.ofTexts r.affected).mergeSort Tally.byCount).take affectedLimit

/-! ### JSON -/

/-- A text that may be missing. -/
def optionalText (s : Option String) : Json := (s.map Json.text).getD .null

/-- A diagnostic in a report. -/
def diagnosticJson (d : Diagnostic) : Json := .object [
  ("kind", .text d.kind.name), ("message", .text d.message), ("class", optionalText d.cls),
  ("member", optionalText d.member), ("filename", .text d.file), ("linenr", .int d.line)]

/-- A class with its count. -/
def affectedJson (t : Tally) : Json := .object [("class", .text t.text), ("count", .int t.count)]

/-- A report as JSON. -/
def json (r : Report) (clock : Clock) : Json := .object [
  ("meta", .object [
    ("timestamp", .float clock.timestamp), ("duration", .float clock.duration),
    ("config_hash", .text r.configHash), ("schema_version", .int r.schemaVersion),
    ("total_items", .int r.diagnostics.length)]),
  ("diagnostics", .array (r.diagnostics.map diagnosticJson)),
  ("stats", .object [
    ("kind_counts", .object (r.kindCounts.map fun t => (t.text, .int t.count))),
    ("most_affected_classes", .array (r.mostAffected.map affectedJson))])]

/-- The text of a report. -/
def text (r : Report) (clock : Clock) : String := (r.json clock).indented

end Report

end DocGraph
