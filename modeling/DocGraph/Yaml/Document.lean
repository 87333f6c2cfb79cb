import DocGraph.Yaml.Assembly

/-!
# Documents

The value of a document, put together from what its nodes are. A node that several others refer to is a
part of each of them; a collection that is inside itself becomes a loop labelled by the place of its
node. So does every collection on the way round, for each of them is inside itself.
-/

namespace DocGraph.Yaml

/-- The values known so far of nodes that are not inside themselves. -/
abbrev KnownValues := Array (Option Value)

/-- A value, and the labels in it that belong to loops around it. -/
structure OpenValue where
  value : Value
  labels : List Nat

/-- The labels of some values, each once. -/
def OpenValue.allLabels (vs : List OpenValue) : List Nat :=
  vs.foldl (fun labels v => labels ++ v.labels.filter fun l => !labels.contains l) []

/-- The value of a collection whose parts have some labels. If there are any, it is a loop, and looks
different from inside another one. If there are none, it is the same everywhere and remembered. -/
def collection (id : NodeId) (body : Value) (labels : List Nat) : StateM KnownValues OpenValue := do
  if labels.isEmpty then
    modify fun known => known.setIfInBounds id (some body)
    return ⟨body, []⟩
  else return ⟨.loop id body, labels.filter (· ≠ id)⟩

/-- The value of a node inside the given collections, none of which is met again on the way inward; so
as many steps inward as there are nodes suffice. -/
def valueAt (parts : Array (Option Part)) :
    Nat → List NodeId → NodeId → StateM KnownValues OpenValue
  | 0, _, _ => return ⟨.null, []⟩
  | n + 1, around, id => do
    if around.contains id then return ⟨.again id, [id]⟩
    match ((← get)[id]?).join, (parts[id]?).join with
    | some v, _ => return ⟨v, []⟩
    | none, none => return ⟨.null, []⟩
    | none, some (.scalar s) => return ⟨.scalar s, []⟩
    | none, some (.list items) =>
      let vs ← items.mapM (valueAt parts n (id :: around))
      collection id (.list (vs.map OpenValue.value)) (OpenValue.allLabels vs)
    | none, some (.map pairs) =>
      let vs ← pairs.mapM fun p => valueAt parts n (id :: around) p.2
      let body := .map ((pairs.zip vs).map fun (p, v) => (p.1, v.value))
      collection id body (OpenValue.allLabels vs)

/-- The value of a document. -/
def Document.value (d : Document) : Except Fault Value := do
  let parts ← d.parts
  let (v, _) := valueAt parts (d.nodes.size + 1) [] d.root (Array.replicate d.nodes.size none)
  return v.value

/-- The value of the document in a text; null if the text holds none. -/
def Document.read (text : String) : Except Fault Value := do
  match ← Document.ofText text with
  | none => return .null
  | some d => d.value

end DocGraph.Yaml
