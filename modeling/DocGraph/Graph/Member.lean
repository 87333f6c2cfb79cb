import DocGraph.Catalog.Basic
import DocGraph.Value.Basic

/-!
# Documented classes

A class and its members in finished form. Every member knows its reference, which is made of the name
of its class and its key in the class's table. Documentation that a member takes from another one, its
version and whether it is new are filled in later.
-/

namespace DocGraph

/-- A member of a class. -/
structure Member where
  ref : MemberRef
  doc : String := ""
  params : List Param := []
  returns : Option Returns := none
  type : String := ""
  defaultValue : Option String := none
  static : Bool := false
  isPrivate : Bool := false
  chainable : Bool := false
  inherits : Option DocTarget := none
  since : Option String := none
  file : String := ""
  line : Int := 0
  /-- The member whose documentation was taken over. -/
  inheritedFrom : Option MemberRef := none
  /-- The version from which on the member exists. -/
  resolvedSince : Value := .null
  isNew : Bool := false

namespace Member

/-- The name of the class. -/
abbrev owner (m : Member) : String := m.ref.cls

/-- The name of the member. -/
abbrev name (m : Member) : String := m.ref.key.name

/-- The kind of the member. -/
abbrev kind (m : Member) : MemberKind := m.ref.key.kind

/-- The member that a fragment documents. -/
def ofFragment (ref : MemberRef) (f : Fragment) : Member where
  ref
  doc := f.doc
  params := f.params
  returns := f.returns
  type := f.type
  defaultValue := f.defaultValue
  static := f.static
  isPrivate := f.isPrivate
  chainable := f.chainable
  inherits := f.inherits
  since := f.since
  file := f.file
  line := f.line

@[simp] theorem ref_ofFragment (ref : MemberRef) (f : Fragment) : (ofFragment ref f).ref = ref := rfl

end Member

/-! ### Classes -/

/-- A class. A parent without a name counts as none. -/
structure DocClass where
  name : String
  parent : Option String := none
  mixins : List String := []
  alternateNames : List String := []
  doc : String := ""
  singleton : Bool := false
  isPrivate : Bool := false
  since : Option String := none
  enumeration : Option EnumSpec := none
  file : String := ""
  line : Int := 0
  members : OrderedMap MemberKey Member := .empty
  shadowed : List Fragment := []
  /-- The version from which on the class exists. -/
  resolvedSince : Value := .null
  located : ∀ e ∈ members.entries, e.2.ref = ⟨name, e.1⟩ := by simp [OrderedMap.empty]
  parent_named : (parent == some "") = false := by
    first
    | exact Eq.refl false
    | exact beq_eq_false_iff_ne.2 fun h => absurd (Option.filter_eq_some_iff.1 h).2 (by decide)

namespace DocClass

/-- Members made of the entries of a table, each with its reference. -/
def membersOf {α : Type} (cls : String) (f : MemberRef → α → Member) (table : OrderedMap MemberKey α) :
    OrderedMap MemberKey Member :=
  table.map fun key a => { f ⟨cls, key⟩ a with ref := ⟨cls, key⟩ }

theorem located_membersOf {α : Type} (cls : String) (f : MemberRef → α → Member)
    (table : OrderedMap MemberKey α) :
    ∀ e ∈ (membersOf cls f table).entries, e.2.ref = ⟨cls, e.1⟩ := by
  simp only [membersOf, OrderedMap.map, List.mem_map]
  rintro _ ⟨e, _, rfl⟩
  rfl

/-- The class that a record describes. -/
def ofRecord (r : Record) : DocClass where
  name := r.name
  parent := r.parent
  mixins := r.mixins
  alternateNames := r.alternateNames
  doc := r.doc
  singleton := r.singleton
  isPrivate := r.isPrivate
  since := r.since
  enumeration := r.enumeration
  file := r.file
  line := r.line
  members := membersOf r.name Member.ofFragment r.members
  shadowed := r.shadowed
  located := located_membersOf r.name Member.ofFragment r.members
  parent_named := r.parent_named

/-- The member with the given key. -/
def member? (c : DocClass) (key : MemberKey) : Option Member := c.members.get? key

/-- The members with the given name, of whatever kind. -/
def membersNamed (c : DocClass) (name : String) : List Member :=
  c.members.values.filter (·.name = name)

/-- Change all members, but not their references. -/
def mapMembers (c : DocClass) (f : Member → Member) (h : ∀ m, (f m).ref = m.ref) : DocClass :=
  { c with
    members := c.members.map fun _ m => f m
    located := by
      simp only [OrderedMap.map, List.mem_map]
      rintro _ ⟨e, he, rfl⟩
      simpa [h] using c.located e he }

theorem parent_ne (c : DocClass) : c.parent ≠ some "" := beq_eq_false_iff_ne.1 c.parent_named

/-- The classes that a class names as parent and mixins. -/
def references (c : DocClass) : List String := c.parent.toList ++ c.mixins

end DocClass

end DocGraph
