import DocGraph.Catalog.Globals

/-!
# Overrides

A class that overrides another one gives its members to it and is then removed; its name remains
legal to refer to. An override of a class that does not exist, or that is itself an override, is
reported and has no effect.
-/

namespace DocGraph.Catalog

/-- The report that a class overrides nothing that could be overridden. -/
def missingTarget (r : Record) : Diagnostic where
  kind := .unresolvedReference
  message := "Class " ++ r.overrides.getD "" ++ " not found for override " ++ r.name
  cls := some r.name
  file := r.file
  line := r.line

/-- The record that an override applies to. -/
def overrideTarget? (c : Catalog) (r : Record) : Option Record :=
  (r.overrides.bind c.get?).filter (·.overrides.isNone)

/-- Give the members of an override to its target. -/
def applyOverride (c : Catalog) (r : Record) : Catalog × Journal :=
  match overrideTarget? c r with
  | none => (c, [.warning (missingTarget r)])
  | some target =>
    let (target', journal) := r.members.entries.foldl
      (fun s m => defineIn target.name s m.1 m.2) (target, [])
    (c.insert target.name target', .overrideApplied r.name target.name :: journal)

/-- Apply an override and remove it. -/
def overrideStep (e : Enriched) (r : Record) : Enriched :=
  let (c, journal) := applyOverride e.classes r
  ⟨c.erase r.name, e.names ++ [r.name], e.journal ++ journal⟩

/-- Apply all overrides in the order of the catalog. -/
def applyOverrides (c : Catalog) : Enriched :=
  (c.values.filter (·.overrides.isSome)).foldl overrideStep { classes := c }

end DocGraph.Catalog
