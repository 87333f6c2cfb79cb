import DocGraph.Fragment.Target
import DocGraph.Value.Text

/-!
# Fragments in documents

A fragment is written as a mapping. Several of its parts have a short form: a bare text stands for a
mapping with nothing but a name or type. Parts are read in a fixed order, and the first one that
cannot be read is the fault of the whole.
-/

namespace DocGraph

/-- The names in a list; a single text is a list of one name. Empty names are dropped. -/
def nameList (v : Value) : Except Fault (List String) :=
  match v with
  | .scalar .null => .ok []
  | .scalar (.text s) => .ok (if (Text.trim s).isEmpty then [] else [Text.trim s])
  | v => do return (← (← v.items).mapM Value.asText?).filterMap id

/-- A parameter, of which the bare name is the short form. -/
def Param.ofValue : Value → Except Fault Param
  | .scalar (.text s) => .ok ⟨s, "", "", false, none⟩
  | v => do
    let ps ← v.pairs?
    return {
      name := ← Value.textOf ps "name"
      type := ← Value.textOf ps "type"
      doc := ← Value.textOf ps "doc"
      optional := (Value.fieldOf ps "optional").isTruthy
      defaultValue := ← Value.textOf? ps "default" }

/-- What a method returns, of which the bare type is the short form. -/
def Returns.ofValue : Value → Except Fault (Option Returns)
  | .scalar .null => .ok none
  | .scalar (.text s) => .ok (some ⟨Text.trim s, ""⟩)
  | v => do
    let ps ← v.pairs?
    return some { type := ← Value.textOf ps "type", doc := ← Value.textOf ps "doc" }

/-- A target, which may be a mapping, a text, or simply asked for. -/
def DocTarget.ofValue : Value → Except Fault (Option DocTarget)
  | .scalar .null | .scalar (.bool false) => .ok none
  | .scalar (.bool true) => .ok (some {})
  | .scalar (.text s) => .ok (some (.ofText s))
  | v => do
    let ps ← v.pairs?
    return some {
      cls := ← Value.textOf? ps "cls"
      member := ← Value.textOf? ps "member"
      kind := ← Value.textOf? ps "kind" }

/-- A value of an enumeration, of which the bare name is the short form; its value is then the name in
double quotes. -/
def EnumValue.ofValue : Value → Except Fault EnumValue
  | .scalar (.text s) => .ok { name := s, value := some ("\"" ++ s ++ "\"") }
  | v => do
    let ps ← v.pairs?
    return {
      name := ← Value.textOf ps "name"
      value := ← Value.textOf? ps "value"
      doc := ← Value.textOf ps "doc"
      type := ← Value.textOf ps "type" }

/-- What makes a class an enumeration, which may simply be asked for. -/
def EnumSpec.ofValue (v : Value) : Except Fault (Option EnumSpec) :=
  if !v.isTruthy then .ok none
  else match v with
    | .scalar (.bool true) => .ok (some {})
    | v => do
      let ps ← v.pairs?
      let values ← (← ((Value.fieldOf ps "values").orEmpty).items).mapM EnumValue.ofValue
      return some ⟨← Value.textOf ps "type", values⟩

/-- The fragment written as a mapping, as the entry with the given index of a file. -/
def Fragment.ofPairs (ps : List (Scalar × Value)) (file : String) (index : Int) :
    Except Fault Fragment := do
  let word ← Value.textOf ps "tagname"
  let name ← Value.textOf ps "name"
  if word.isEmpty || name.isEmpty then throw (.entryUnnamed index)
  let some subject := Subject.ofName? word | throw (.unknownTag index word)
  let field := Value.fieldOf ps
  let flag (name : String) : Bool := (field name).isTruthy
  return {
    subject
    name
    owner := ← Value.textOf? ps "owner"
    doc := ← Value.textOf ps "doc"
    parent := ← Value.textOf? ps "extends"
    mixins := ← nameList (field "mixins")
    alternateNames := ← nameList (field "alternateNames")
    ignored := flag "ignore"
    singleton := flag "singleton"
    static := flag "static"
    isPrivate := flag "private"
    params := ← (← ((field "params").orEmpty).items).mapM Param.ofValue
    returns := ← Returns.ofValue (field "return")
    type := ← Value.textOf ps "type"
    defaultValue := ← Value.textOf? ps "default"
    inherits := ← DocTarget.ofValue (field "inheritdoc")
    since := ← Value.textOf? ps "since"
    accessor := flag "accessor"
    evented := flag "evented"
    chainable := flag "chainable"
    enumeration := ← EnumSpec.ofValue (field "enum")
    overrides := ← Value.textOf? ps "override"
    file
    line := ← if flag "linenr" then (field "linenr").toInt else pure 0 }

/-- The fragment that an entry of a file is. -/
def Fragment.ofEntry (entry : Value) (file : String) (index : Int) : Except Fault Fragment := do
  Fragment.ofPairs (← entry.pairs?) file index

end DocGraph
