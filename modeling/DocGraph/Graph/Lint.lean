import DocGraph.Graph.Basic

/-!
# Flaws of the documentation

References to classes that are not known, definitions that were replaced, things without
documentation, and parameter lists with gaps, repetitions or a wrong order. The graph is only looked
at.
-/

namespace DocGraph

/-- Which flaws are looked for besides those that always are. -/
structure LintOptions where
  /-- Classes and members without documentation. -/
  noDoc : Bool := false
  /-- Parameters without documentation. -/
  paramDocs : Bool := true

namespace Lint

/-- A flaw of a class. -/
def ofClass (c : DocClass) (message : String) (member : Option String := none) : Diagnostic where
  kind := .lint
  message
  cls := some c.name
  member
  file := c.file
  line := c.line

/-- A flaw of a member. -/
def ofMember (c : DocClass) (m : Member) (message : String) : Diagnostic where
  kind := .lint
  message
  cls := some c.name
  member := some m.name
  file := m.file
  line := m.line

/-! ### References -/

/-- The references of a class with the words for their edges. -/
def namedReferences (c : DocClass) : List (String × String) :=
  (c.parent.toList.map ("extends", ·)) ++ c.mixins.map ("mixins", ·)

/-- References to classes that are neither in the graph nor external. -/
def references (unresolved : List String) (c : DocClass) : List Diagnostic :=
  ((namedReferences c).filter fun p => unresolved.contains p.2).map fun p =>
    ofClass c ("Class " ++ p.2 ++ " referenced in " ++ p.1 ++ " of " ++ c.name ++ " not found")

/-! ### Replaced definitions -/

/-- The class and the member that each report of a replaced definition is about. -/
abbrev Reported := List (Option String × Option String)

/-- What earlier reports of replaced definitions are about. -/
def reported (ds : List Diagnostic) : Reported :=
  (ds.filter (·.kind = .duplicateDefinition)).map fun d => (d.cls, d.member)

/-- Replaced definitions of a class that have not been reported yet; each earlier report stands for
one of them. -/
def shadowed (c : DocClass) (left : Reported) : List Fragment → List Diagnostic × Reported
  | [] => ([], left)
  | f :: fs =>
    let about := (some c.name, some f.name)
    if about ∈ left then shadowed c (left.erase about) fs
    else
      let (ds, left) := shadowed c left fs
      (ofClass c ("Duplicate " ++ f.subject.name ++ " " ++ c.name ++ "#" ++ f.name ++
          "; definition at " ++ f.file ++ ":" ++ toString f.line ++ " ignored") (some f.name) :: ds,
        left)

/-! ### Members -/

/-- Whether members of a kind have parameters. -/
def hasParams (kind : MemberKind) : Bool := kind = .method || kind = .event || kind = .cssMixin

/-- Flaws of parameters, after parameters with the given names of which one is optional or not. -/
def params (o : LintOptions) (c : DocClass) (m : Member) (seen : List String) (optional : Bool) :
    List Param → List Diagnostic
  | [] => []
  | p :: ps =>
    let flaw (condition : Bool) (message : String) : List Diagnostic :=
      if condition then [ofMember c m message] else []
    flaw (seen.contains p.name) ("Duplicate parameter " ++ p.name ++ " in " ++ m.ref.text) ++
      flaw (o.paramDocs && p.doc.isEmpty)
        ("Undocumented parameter " ++ p.name ++ " of " ++ m.ref.text) ++
      flaw (optional && !p.optional)
        ("Required parameter " ++ p.name ++ " after optional in " ++ m.ref.text) ++
      params o c m (p.name :: seen) (optional || p.optional) ps

/-- Flaws of a member. -/
def member (o : LintOptions) (c : DocClass) (m : Member) : List Diagnostic :=
  (if o.noDoc && m.doc.isEmpty && !m.isPrivate then
    [ofMember c m ("No documentation for " ++ m.ref.text)] else []) ++
    if hasParams m.kind then params o c m [] false m.params else []

/-! ### Graphs -/

/-- Flaws of a class and its members. -/
def cls (o : LintOptions) (unresolved : List String) (c : DocClass) (left : Reported) :
    List Diagnostic × Reported :=
  let (replaced, left) := shadowed c left c.shadowed
  let undocumented :=
    if o.noDoc && c.doc.isEmpty && !c.isPrivate then
      [ofClass c ("No documentation for class " ++ c.name)] else []
  (references unresolved c ++ replaced ++ undocumented ++ c.members.values.flatMap (member o c),
    left)

/-- Flaws of classes. -/
def classes (o : LintOptions) (unresolved : List String) (left : Reported) :
    List DocClass → List Diagnostic
  | [] => []
  | c :: cs =>
    let (ds, left) := cls o unresolved c left
    ds ++ classes o unresolved left cs

end Lint

/-- The flaws of a graph, given what has been reported before. -/
def ClassGraph.lint (g : ClassGraph) (o : LintOptions) (earlier : List Diagnostic) :
    List Diagnostic :=
  Lint.classes o g.unresolved (Lint.reported earlier) g.classes

end DocGraph
