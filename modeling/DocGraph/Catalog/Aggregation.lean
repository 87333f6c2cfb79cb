import DocGraph.Catalog.Basic

/-!
# Aggregation

Fragments are gathered into a catalog file by file. The result depends on the order of files and of
fragments alone. Members without a class are set aside.
-/

namespace DocGraph

/-- The fragments of a file. -/
structure ParsedFile where
  file : String
  fragments : List Fragment

/-- What has been gathered so far. -/
structure Aggregation where
  classes : Catalog := .empty
  orphans : List Fragment := []
  journal : Journal := []

namespace Aggregation

/-- Gather one fragment. -/
def add (policy : MergePolicy) (a : Aggregation) (f : Fragment) : Aggregation :=
  match f.key?, f.class? with
  | none, _ =>
    { a with classes := a.classes.insert f.name ((a.classes.record f.name).declare policy f) }
  | some _, none => { a with orphans := a.orphans ++ [f] }
  | some key, some owner =>
    let r := a.classes.record owner
    { a with
      classes := a.classes.insert owner (r.define key f)
      journal := a.journal ++ r.defineJournal key f }

/-- Report that the fragments of a file are gathered next. -/
def announce (a : Aggregation) (file : String) : Aggregation :=
  { a with journal := a.journal ++ [.stage "Aggregating" file] }

/-- Gather the fragments of a file. -/
def addFile (policy : MergePolicy) (a : Aggregation) (p : ParsedFile) : Aggregation :=
  p.fragments.foldl (add policy) (a.announce p.file)

/-- Gather the fragments of all files. -/
def ofFiles (policy : MergePolicy) (files : List ParsedFile) : Aggregation :=
  files.foldl (addFile policy) {}

end Aggregation

end DocGraph
