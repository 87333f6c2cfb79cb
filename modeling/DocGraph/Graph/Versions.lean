import DocGraph.Graph.Search
import DocGraph.Value.Equality

/-!
# Versions

The version from which on a class exists is the written one or else the default. For a member, the
versions written for it further up come between these two. A member is new if its version is the one
that was asked for. Versions may be of any form, and comparing two of them may fail.
-/

namespace DocGraph.ClassGraph

/-- The version settings. -/
structure VersionOptions where
  default : Value := .null
  newSince : Value := .null

/-- A version that is written; an empty text is none. -/
def written (since : Option String) : Option String := since.filter fun s => !s.isEmpty

/-- A version that may be missing, or else another value. -/
def versionOr (since : Option String) (other : Value) : Value :=
  match since with
  | some s => .text s
  | none => other

/-- The first version written for a member of the given key in search order. -/
def inheritedSince (g : ClassGraph) (r : MemberRef) : Option String :=
  (g.searchOrder r.cls).findSome? fun c => (c.member? r.key).bind fun m => written m.since

/-- The version written for a member, or else further up, if there is one. -/
def writtenSince (g : ClassGraph) (m : Member) : Option String :=
  (written m.since).or (g.inheritedSince m.ref)

/-- Whether a version is the one that was asked for. Versions whose comparison fails are not. -/
def isAsked (o : VersionOptions) (since : Value) : Bool :=
  o.newSince.isTruthy && (since.equals o.newSince).toOption.getD false

/-- A member with its version settled, for the version of its class. -/
def settleMember (g : ClassGraph) (o : VersionOptions) (clsSince : Value) (m : Member) : Member :=
  let since := versionOr (g.writtenSince m) clsSince
  { m with resolvedSince := since, isNew := isAsked o since }

/-- The graph with the versions of all classes and members settled. -/
def withVersions (g : ClassGraph) (o : VersionOptions) : ClassGraph :=
  g.mapClasses (fun c =>
    let since := versionOr (written c.since) o.default
    { c.mapMembers (g.settleMember o since) (fun _ => rfl) with resolvedSince := since })
    fun _ => rfl

/-- Whether some member has no version but the default one. -/
def usesDefault (g : ClassGraph) : Bool :=
  g.classes.any fun c =>
    (written c.since).isNone && c.members.values.any fun m => (g.writtenSince m).isNone

/-- Settle the versions of all classes and members. This fails if the default version is compared with
the one that was asked for and the comparison fails; a version that is written is always a text, whose
comparison does not. -/
def settleVersions (g : ClassGraph) (o : VersionOptions) : Except Fault ClassGraph := do
  if o.newSince.isTruthy && g.usesDefault then let _ ← o.default.equals o.newSince
  return g.withVersions o

end DocGraph.ClassGraph
