import DocGraph.Journal
import DocGraph.OrderedMap

/-!
# Class records

A record gathers what the fragments of one class say, wherever they are written. A record that no
class declaration has reached yet is a placeholder. Of several definitions of one member the last one
is in the table of members, and the ones before it are kept as shadowed.
-/

namespace DocGraph

/-- Which of several declarations of a class decides about an attribute that both give. -/
inductive MergePolicy
  | first
  | last
  deriving DecidableEq, Repr

namespace MergePolicy

/-- The word for a policy. -/
def name : MergePolicy → String
  | .first => "first"
  | .last => "last"

/-- The value of an attribute after a further declaration. -/
def settle {α : Type} (policy : MergePolicy) (old new : Option α) : Option α :=
  match policy with
  | .first => old.or new
  | .last => new.or old

/-- A text that may be left out. An empty one counts as left out. -/
def settleText? (policy : MergePolicy) (old new : Option String) : Option String :=
  policy.settle old (new.filter fun s => !s.isEmpty)

theorem settleText?_named (policy : MergePolicy) {old : Option String} (h : (old == some "") = false)
    (new : Option String) : (policy.settleText? old new == some "") = false := by
  rw [beq_eq_false_iff_ne] at h ⊢
  have hnew : new.filter (fun s => !s.isEmpty) ≠ some "" := by simp [Option.filter_eq_some_iff]
  cases policy <;> simp [settleText?, settle, Option.or_eq_some_iff, h, hnew]

/-- A text that is missing where it is empty. -/
def settleText (policy : MergePolicy) (old new : String) : String :=
  match policy with
  | .first => if old.isEmpty then new else old
  | .last => if new.isEmpty then old else new

end MergePolicy

/-- What is known of a class. A parent or an override without a name counts as none. -/
structure Record where
  name : String
  doc : String := ""
  parent : Option String := none
  mixins : List String := []
  alternateNames : List String := []
  ignored : Bool := false
  singleton : Bool := false
  isPrivate : Bool := false
  since : Option String := none
  enumeration : Option EnumSpec := none
  overrides : Option String := none
  file : String := ""
  line : Int := 0
  placeholder : Bool := true
  members : OrderedMap MemberKey Fragment := .empty
  shadowed : List Fragment := []
  parent_named : (parent == some "") = false := by exact Eq.refl false
  overrides_named : (overrides == some "") = false := by exact Eq.refl false

/-- Add the values that are not yet in a list, in their order. -/
def appendNew (xs ys : List String) : List String :=
  ys.foldl (fun xs y => if y ∈ xs then xs else xs ++ [y]) xs

namespace Record

/-- What a further declaration of the class adds. The place of the class is that of its first
declaration. -/
def declare (policy : MergePolicy) (r : Record) (f : Fragment) : Record :=
  { r with
    doc := policy.settleText r.doc f.doc
    parent := policy.settleText? r.parent f.parent
    since := policy.settleText? r.since f.since
    enumeration := policy.settle r.enumeration f.enumeration
    overrides := policy.settleText? r.overrides f.overrides
    ignored := r.ignored || f.ignored
    singleton := r.singleton || f.singleton
    isPrivate := r.isPrivate || f.isPrivate
    mixins := appendNew r.mixins f.mixins
    alternateNames := appendNew r.alternateNames f.alternateNames
    file := if r.placeholder then f.file else r.file
    line := if r.placeholder then f.line else r.line
    placeholder := false
    parent_named := policy.settleText?_named r.parent_named f.parent
    overrides_named := policy.settleText?_named r.overrides_named f.overrides }

/-- Put a definition of a member into the table; the one it replaces becomes shadowed. -/
def define (r : Record) (key : MemberKey) (f : Fragment) : Record :=
  { r with
    members := r.members.insert key f
    shadowed := r.shadowed ++ (r.members.get? key).toList }

/-- Put a definition of a member into the table unless there is one. -/
def supply (r : Record) (key : MemberKey) (f : Fragment) : Record :=
  if r.members.contains key then r else { r with members := r.members.insert key f }

end Record

/-! ### Replaced definitions -/

/-- The report that one definition of a member of a class replaces another. -/
def shadowDiagnostic (cls : String) (previous winner : Fragment) : Diagnostic where
  kind := .duplicateDefinition
  message :=
    previous.subject.name ++ " " ++ cls ++ "#" ++ previous.name ++ " redefined at " ++
      winner.file ++ ":" ++ toString winner.line ++ "; definition at " ++ previous.file ++ ":" ++
      toString previous.line ++ " is shadowed"
  cls := some cls
  member := some previous.name
  file := winner.file
  line := winner.line

/-- What is reported when a definition is put into a record. -/
def Record.defineJournal (r : Record) (key : MemberKey) (f : Fragment) : Journal :=
  (r.members.get? key).toList.map fun previous => .warning (shadowDiagnostic r.name previous f)

end DocGraph
