import DocGraph.Graph.Search

/-!
# Inherited documentation

A member without documentation takes it from the first class in search order that has a documented
member with its key, or from the member that it names as its target. What a member lacks is copied
from its source once the source itself is settled; what it has is kept.

Settling goes from member to member. A member that is being settled is passed over as a source, and a
target that leads back to one is reported.
-/

namespace DocGraph

namespace Member

/-- Whether a member takes part in inheritance. -/
def needsDocs (m : Member) : Bool := m.inherits.isSome || m.doc.isEmpty

/-- The member with what it lacks taken from a source. -/
def inherit (m source : Member) : Member :=
  { m with
    doc := if m.doc.isEmpty then source.doc else m.doc
    params := if m.params.isEmpty then source.params else m.params
    returns := m.returns.or source.returns
    type := if m.type.isEmpty then source.type else m.type
    inheritedFrom := some source.ref }

@[simp] theorem ref_inherit (m source : Member) : (m.inherit source).ref = m.ref := rfl

/-- A report about a member. -/
def diagnostic (m : Member) (kind : DiagnosticKind) (message : String) : Diagnostic where
  kind
  message
  cls := some m.owner
  member := some m.name
  file := m.file
  line := m.line

/-- The report that a target leads back to the member. -/
def circularDiagnostic (m : Member) : Diagnostic :=
  m.diagnostic .structuralCycle ("Circular @inheritdoc reference at " ++ m.ref.text)

/-- The report that a member names itself as its target. -/
def selfDiagnostic (m : Member) : Diagnostic :=
  m.diagnostic .structuralCycle ("@inheritdoc on " ++ m.ref.text ++ " names itself")

/-- The report that the target of a member does not exist. -/
def targetDiagnostic (m : Member) (cls name : String) : Diagnostic :=
  m.diagnostic .unresolvedReference
    ("@inheritdoc on " ++ m.ref.text ++ ": target " ++ cls ++ "#" ++ name ++ " not found")

/-- The report that no class has documentation for a member that asks for it. -/
def noSourceDiagnostic (m : Member) : Diagnostic :=
  m.diagnostic .unresolvedReference
    ("@inheritdoc on " ++ m.ref.text ++ ": no parent member found")

end Member

/-! ### Targets -/

/-- The name of the class that a target names, for the member that has the target. -/
def DocTarget.className (t : DocTarget) (m : Member) : String := (part t.cls).getD m.owner

/-- The name of the member that a target names, for the member that has the target. -/
def DocTarget.memberName (t : DocTarget) (m : Member) : String := (part t.member).getD m.name

/-- The word for the kind of the member that a target names, for the member that has the target. -/
def DocTarget.kindName (t : DocTarget) (m : Member) : String := (part t.kind).getD m.kind.name

/-- The member of a class that a target names. If the target leaves out the kind, members of other
kinds than that of the member that asks come after it. A word that is no kind finds nothing. -/
def DocClass.targeted? (c : DocClass) (m : Member) (t : DocTarget) : Option Member :=
  let name := t.memberName m
  let found := (MemberKind.ofName? (t.kindName m)).bind fun kind => c.member? ⟨kind, name⟩
  if t.kind.isNone then found.or (c.membersNamed name).head? else found

/-- The member that a target names, for the member that has the target. -/
def ClassGraph.target? (g : ClassGraph) (m : Member) (t : DocTarget) : Option Member := do
  (← g.find? (t.className m)).targeted? m t

/-! ### Settling -/

/-- A graph in which documentation is being inherited. -/
structure Inheriting where
  graph : ClassGraph
  /-- Members that are settled. -/
  settled : List MemberRef := []
  /-- Members that are being settled, the last one begun first. -/
  active : List MemberRef := []
  journal : Journal := []

namespace Inheriting

/-- Report something. -/
def report (s : Inheriting) (e : Event) : Inheriting := { s with journal := s.journal ++ [e] }

/-- Count a member as settled. -/
def settle (s : Inheriting) (r : MemberRef) : Inheriting := { s with settled := r :: s.settled }

/-- Begin to settle a member. -/
def enter (s : Inheriting) (r : MemberRef) : Inheriting := { s with active := r :: s.active }

/-- Finish settling a member. -/
def leave (s : Inheriting) (r : MemberRef) : Inheriting :=
  { s with active := s.active.filter (· ≠ r), settled := r :: s.settled }

/-- The members of the given key in the classes in which to look for documentation. -/
def candidates (g : ClassGraph) (r : MemberRef) : List MemberRef :=
  (g.searchOrder r.cls).filterMap fun c => (c.member? r.key).map Member.ref

/-- Settle one candidate after the other up to one with documentation. Candidates that are being
settled are passed over. -/
def firstDocumented (visit : MemberRef → Inheriting → Inheriting) :
    List MemberRef → Inheriting → Option MemberRef × Inheriting
  | [], s => (none, s)
  | r :: rs, s =>
    if r ∈ s.active then firstDocumented visit rs s
    else
      let s := visit r s
      match s.graph.memberAt? r with
      | some m => if m.doc.isEmpty then firstDocumented visit rs s else (some r, s)
      | none => firstDocumented visit rs s

/-- The source that a target names. -/
def explicitSource (m : Member) (t : DocTarget) (s : Inheriting) : Option MemberRef × Inheriting :=
  match s.graph.target? m t with
  | none =>
    (none, s.report (.warning (m.targetDiagnostic (t.className m) (t.memberName m))))
  | some found =>
    if found.ref = m.ref then (none, s.report (.warning m.selfDiagnostic))
    else (some found.ref, s)

/-- The source that a search finds. A member that asks for documentation is reported if there is
none. -/
def searchedSource (visit : MemberRef → Inheriting → Inheriting) (m : Member) (s : Inheriting) :
    Option MemberRef × Inheriting :=
  match firstDocumented visit (candidates s.graph m.ref) s with
  | (some r, s) => (some r, s)
  | (none, s) => (none, if m.inherits.isSome then s.report (.warning m.noSourceDiagnostic) else s)

/-- The source of a member. -/
def source (visit : MemberRef → Inheriting → Inheriting) (m : Member) (s : Inheriting) :
    Option MemberRef × Inheriting :=
  match m.inherits with
  | some t => if t.isExplicit then explicitSource m t s else searchedSource visit m s
  | none => searchedSource visit m s

/-- Copy what a member lacks from another one. -/
def copy (r from' : MemberRef) (s : Inheriting) : Inheriting :=
  match s.graph.memberAt? from' with
  | none => s
  | some src =>
    { s with
      graph := s.graph.modifyMember r (·.inherit src) fun _ => rfl
      journal := s.journal ++ [.docInherited r src.ref] }

/-- Settle a member, and first the members it depends on, at most as deep as the first argument
says. -/
def resolve : Nat → MemberRef → Inheriting → Inheriting
  | 0, _, s => s
  | depth + 1, r, s =>
    match s.graph.memberAt? r with
    | none => s
    | some m =>
      if r ∈ s.settled then s
      else if !m.needsDocs then s.settle r
      else if r ∈ s.active then s.report (.warning m.circularDiagnostic)
      else
        match source (resolve depth) m (s.enter r) with
        | (none, s) => s.leave r
        | (some src, s) => (copy r src (resolve depth src s)).leave r

/-- Settle a member. No chain of distinct members is longer than there are members. -/
def resolveMember (s : Inheriting) (r : MemberRef) : Inheriting :=
  resolve (s.graph.refs.length + 1) r s

end Inheriting

/-- Settle all members of a graph, class by class. -/
def ClassGraph.inheritDocs (g : ClassGraph) : ClassGraph × Journal :=
  let s := g.refs.foldl Inheriting.resolveMember { graph := g }
  (s.graph, s.journal)

end DocGraph
