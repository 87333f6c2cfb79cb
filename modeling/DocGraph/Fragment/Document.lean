import DocGraph.Fragment.Entry
import DocGraph.Text.Lines
import DocGraph.Yaml.Document

/-!
# Documents of fragments

A document is a mapping with a list of fragments. A member that names no class belongs to the class
declared last before it, unless it is marked as global. The text of a document may begin with a line
that names its type; that line is no part of it.
-/

namespace DocGraph

/-! ### The type line -/

/-- What a type line begins with. -/
def typeLineMark : List Char := "### YamlMime:".toList

/-- The characters of a text without a type line and the empty lines after it. -/
def dropTypeLineChars (s : List Char) : List Char :=
  match Text.splitLines s with
  | [] => s
  | l :: ls =>
    if typeLineMark.isPrefixOf l then (Text.joinLines ls).dropWhile (· = '\n') else s

/-- A text without a type line and the empty lines after it. -/
def dropTypeLine (s : String) : String := String.ofList (dropTypeLineChars s.toList)

/-! ### Fragments of a document -/

namespace Fragment

/-- A member without an owner, placed in the class declared last. -/
def within (f : Fragment) (current : Option String) (isGlobal : Bool) : Fragment :=
  if f.subject ≠ .cls ∧ f.owner.isNone ∧ !isGlobal then { f with owner := current } else f

/-- The class that the fragments after `f` belong to. -/
def nextClass (f : Fragment) (current : Option String) : Option String :=
  if f.subject = .cls then some f.name else current

/-- The fragments of the entries from `index` on, inside the class `current`. -/
def ofEntries (file : String) (index : Nat) (current : Option String) :
    List Value → Except Fault (List Fragment)
  | [] => .ok []
  | e :: es =>
    match e.opened with
    | .map ps => do
      let f ← ofPairs ps file index
      let fs ← ofEntries file (index + 1) (f.nextClass current) es
      return f.within current (Value.fieldOf ps "global").isTruthy :: fs
    | _ => .error (.entryNotMapping e.typeWord)

/-- The entries of a document. -/
def entries (doc : Value) : Except Fault (List Value) := do
  let .map ps := doc.orEmpty.opened | throw .documentNotMapping
  let .list es := (Value.fieldOf ps "fragments").opened |
    if (Value.fieldOf ps "fragments").isTruthy then throw .fragmentsNotList else return []
  return es

/-- The fragments of a document. -/
def ofDocument (doc : Value) (file : String) : Except Fault (List Fragment) := do
  ofEntries file 0 none (← entries doc)

/-- The fragments of the document in a text. -/
def ofText (text : String) (file : String) : Except Fault (List Fragment) := do
  ofDocument (← Yaml.Document.read (dropTypeLine text)) file

end Fragment

end DocGraph
