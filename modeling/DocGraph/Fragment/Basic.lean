/-!
# Fragments

A fragment is the written documentation of one thing: a class, or a member of a class. Members are
told apart inside a class by kind and name together, and across classes by a reference that also names
the class.
-/

namespace DocGraph

/-! ### Kinds of members -/

/-- What a member of a class is. -/
inductive MemberKind
  | cfg
  | property
  | method
  | event
  | cssVar
  | cssMixin
  deriving DecidableEq, Repr

namespace MemberKind

/-- The kinds of members. -/
def all : List MemberKind := [.cfg, .property, .method, .event, .cssVar, .cssMixin]

/-- The word for a kind. -/
def name : MemberKind → String
  | .cfg => "cfg"
  | .property => "property"
  | .method => "method"
  | .event => "event"
  | .cssVar => "css_var"
  | .cssMixin => "css_mixin"

/-- The kind a word stands for. -/
def ofName? (s : String) : Option MemberKind := all.find? (·.name == s)

@[simp] theorem mem_all (k : MemberKind) : k ∈ all := by cases k <;> decide

@[simp] theorem ofName?_name (k : MemberKind) : ofName? k.name = some k := by cases k <;> decide

end MemberKind

/-- What tells the members of one class apart. -/
structure MemberKey where
  kind : MemberKind
  name : String
  deriving DecidableEq, Repr

/-- What tells members of all classes apart. -/
structure MemberRef where
  cls : String
  key : MemberKey
  deriving DecidableEq, Repr

/-- The class, the kind and the name of a member: `Cls#kind-name`. -/
def MemberRef.text (r : MemberRef) : String := r.cls ++ "#" ++ r.key.kind.name ++ "-" ++ r.key.name

/-! ### Parts of fragments -/

/-- A parameter of a method or event. -/
structure Param where
  name : String
  type : String := ""
  doc : String := ""
  optional : Bool := false
  defaultValue : Option String := none
  deriving DecidableEq, Repr

/-- What a method returns. -/
structure Returns where
  type : String := ""
  doc : String := ""
  deriving DecidableEq, Repr

/-- Where a member takes its documentation from. Parts that are left out or empty are those of the
member itself. -/
structure DocTarget where
  cls : Option String := none
  member : Option String := none
  kind : Option String := none
  deriving DecidableEq, Repr

namespace DocTarget

/-- A part of a target, if it is neither left out nor empty. -/
def part (s : Option String) : Option String := s.filter fun s => !s.isEmpty

/-- Whether a target names anything. -/
def isExplicit (t : DocTarget) : Bool :=
  (part t.cls).isSome || (part t.member).isSome || (part t.kind).isSome

end DocTarget

/-- One of the values of an enumeration. -/
structure EnumValue where
  name : String
  value : Option String := none
  doc : String := ""
  type : String := ""
  deriving DecidableEq, Repr

/-- What makes a class an enumeration. -/
structure EnumSpec where
  type : String := ""
  values : List EnumValue := []
  deriving DecidableEq, Repr

/-! ### Fragments -/

/-- What a fragment documents. -/
inductive Subject
  | cls
  | member (kind : MemberKind)
  deriving DecidableEq, Repr

namespace Subject

/-- The word for what a fragment documents. -/
def name : Subject → String
  | .cls => "class"
  | .member kind => kind.name

/-- What a word says that a fragment documents. -/
def ofName? (s : String) : Option Subject :=
  if s = "class" then some .cls else (MemberKind.ofName? s).map .member

end Subject

/-- The documentation of a class or of a member. -/
structure Fragment where
  subject : Subject
  name : String
  owner : Option String := none
  doc : String := ""
  parent : Option String := none
  mixins : List String := []
  alternateNames : List String := []
  ignored : Bool := false
  singleton : Bool := false
  static : Bool := false
  isPrivate : Bool := false
  params : List Param := []
  returns : Option Returns := none
  type : String := ""
  defaultValue : Option String := none
  inherits : Option DocTarget := none
  since : Option String := none
  accessor : Bool := false
  evented : Bool := false
  chainable : Bool := false
  enumeration : Option EnumSpec := none
  overrides : Option String := none
  file : String := ""
  line : Int := 0
  deriving DecidableEq, Repr

/-- The key of the member that a fragment documents. -/
def Fragment.key? (f : Fragment) : Option MemberKey :=
  match f.subject with
  | .cls => none
  | .member kind => some ⟨kind, f.name⟩

/-- The class that a fragment names as its owner. An empty name is none. -/
def Fragment.class? (f : Fragment) : Option String := f.owner.filter fun n => !n.isEmpty

theorem Fragment.class?_eq_some_iff {f : Fragment} {n : String} :
    f.class? = some n ↔ f.owner = some n ∧ n ≠ "" := by
  simp [class?, Option.filter_eq_some_iff]

end DocGraph
