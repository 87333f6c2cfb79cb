import DocGraph.Record

/-!
# Catalogs

A catalog holds the records of all classes by name, in the order of their first mention. The passes
that prepare it for the class graph each give a new catalog, the names that they have something to say
about, and a journal.
-/

namespace DocGraph

/-- The records of classes by name. -/
abbrev Catalog := OrderedMap String Record

namespace Catalog

/-- The record of a class, which is a placeholder if there is none yet. -/
def record (c : Catalog) (name : String) : Record := (c.get? name).getD { name }

/-- What a pass over a catalog gives. -/
structure Enriched where
  classes : Catalog
  names : List String := []
  journal : Journal := []

/-- Texts in rising order by code points. -/
def inOrder (names : List String) : List String := names.mergeSort fun a b => decide (a ≤ b)

end Catalog

end DocGraph
