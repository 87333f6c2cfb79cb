import DocGraph.Catalog.Basic

/-!
# Ignored classes and members

Classes and members that are flagged to be ignored are removed. The names of the removed classes
remain legal to refer to, and are given back in rising order.
-/

namespace DocGraph.Catalog

/-- A record without its ignored members. -/
def dropIgnoredMembers (r : Record) : Record :=
  { r with members := r.members.filter fun _ f => !f.ignored }

/-- The names of the ignored classes in rising order. -/
def ignoredNames (c : Catalog) : List String :=
  inOrder ((c.entries.filter fun e => e.2.ignored).map Prod.fst)

/-- A catalog without what is to be ignored. -/
def dropIgnored (c : Catalog) : Enriched where
  classes := (c.filter fun _ r => !r.ignored).map fun _ r => dropIgnoredMembers r
  names := ignoredNames c
  journal := (ignoredNames c).map .classIgnored

end DocGraph.Catalog
