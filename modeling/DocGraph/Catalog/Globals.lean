import DocGraph.Catalog.Basic

/-!
# Global members

Members that belong to no class are put into one class made for them, unless there are none or they
are not wanted.
-/

namespace DocGraph.Catalog

/-- The class of global members. -/
def globalName : String := "global"

/-- The record of the class of global members before it has any. -/
def globalRecord : Record where
  name := globalName
  doc := "Global variables and functions."
  placeholder := false

/-- Put a definition into the record of a class and report what it replaces. -/
def defineIn (cls : String) (s : Record × Journal) (key : MemberKey) (f : Fragment) :
    Record × Journal :=
  let f := { f with owner := some cls }
  (s.1.define key f, s.2 ++ s.1.defineJournal key f)

/-- The members among some fragments, with their keys, without those to be ignored. -/
def globalMembers (orphans : List Fragment) : List (MemberKey × Fragment) :=
  (orphans.filter fun f => !f.ignored).filterMap fun f => f.key?.map (·, f)

/-- Put members without a class into the class of global members. -/
def hoistGlobals (c : Catalog) (orphans : List Fragment) (unwanted : Bool) : Enriched :=
  let members := globalMembers orphans
  if unwanted || members.isEmpty then { classes := c }
  else
    let (r, journal) := members.foldl (fun s m => defineIn globalName s m.1 m.2)
      ((c.get? globalName).getD globalRecord, [])
    { classes := c.insert globalName r, journal }

end DocGraph.Catalog
