import DocGraph.Yaml.Merge
import DocGraph.Yaml.Scalar

/-!
# Assembly

The parts of a document are read from the outside to the inside: first what a node is, and the nodes
inside it only when all nodes outside are known. A document may have several faults; the one that counts
is the first one met in this order. In a mapping the merge keys are resolved before its own keys and
values are read.
-/

namespace DocGraph.Yaml

/-- What a node is read as. Inside collections nodes are given by their places. -/
inductive Part
  | scalar (s : Scalar)
  | list (items : List NodeId)
  | map (pairs : List (Scalar × NodeId))
  deriving Repr

/-- A document of which some nodes are read. -/
structure Assembly where
  nodes : Array Node
  /-- What the nodes read so far are. -/
  parts : Array (Option Part)
  /-- The collections met so far. The first of them have been gone through. -/
  met : Array NodeId := #[]
  /-- How many merge keys there were in the beginning. -/
  merges : Nat

/-- Reading the nodes of a document. -/
abbrev Assembling := StateT Assembly (Except Fault)

namespace Assembling

/-- Note what a node is. -/
def note (id : NodeId) (part : Part) : Assembling Unit :=
  modify fun a => { a with parts := a.parts.setIfInBounds id (some part) }

/-- Note a collection, of which nothing is known yet. -/
def meet (id : NodeId) (part : Part) : Assembling Unit := do
  note id part
  modify fun a => { a with met := a.met.push id }

/-- The text of a scalar. A mapping has the text of its default value, whose key is a mark of its own;
a chain of default values that is longer than there are nodes has no end. -/
def scalarText (nodes : Array Node) : Nat → NodeId → Except Fault String
  | 0, _ => .error .endless
  | n + 1, id =>
    match Node.contentAt nodes id with
    | some (.scalar text) => .ok text
    | some (.mapping ps) =>
      match ps.find? fun p => Node.tagAt nodes p.1 == some .value with
      | some p => scalarText nodes n p.2
      | none => .error .malformed
    | _ => .error .malformed

/-- The scalar that a node is. Days and times are read from texts only. -/
def scalar (nodes : Array Node) (id : NodeId) (node : Node) : Except Fault Scalar := do
  match node.tag with
  | .merge | .value | .other _ => .error .malformed
  | tag =>
    let text ← scalarText nodes (nodes.size + 1) id
    match tag, node.content with
    | .time, .mapping _ => .error .wrongType
    | _, _ => scalarOf tag (id + 1) text

/-- What a node is. Of a collection only this is read. -/
def part (id : NodeId) : Assembling Part := do
  let a ← get
  match (a.parts[id]?).join, a.nodes[id]? with
  | some part, _ => return part
  | none, none => throw .malformed
  | none, some node =>
    match node.tag with
    | .sequence =>
      meet id (.list [])
      return .list []
    | .mapping =>
      meet id (.map [])
      return .map []
    | _ =>
      let s ← scalar a.nodes id node
      note id (.scalar s)
      return .scalar s

/-- The key that a node is. Collections are none. -/
def key (id : NodeId) : Assembling Scalar := do
  match ← part id with
  | .scalar s => return s
  | _ => throw .malformed

/-- Resolve the merge keys of a mapping. -/
def merge (id : NodeId) : Assembling Unit := do
  let a ← get
  let ((), nodes) ← (Merging.resolve a.merges id).run a.nodes
  set { a with nodes }

/-- Read the nodes inside a collection. The first spelling of a key stays, and its last value counts. -/
def goThrough (id : NodeId) : Assembling Unit := do
  match (← get).nodes[id]? with
  | some ⟨.sequence, .sequence items⟩ =>
    for item in items do let _ ← part item
    note id (.list items)
  | some ⟨.mapping, .mapping _⟩ =>
    merge id
    let mut known := []
    for (k, v) in Node.pairsAt (← get).nodes id do
      let k ← key k
      let _ ← part v
      known := Value.insert known k v
    note id (.map known)
  | _ => throw .malformed

/-- Read the nodes inside the collections met, from the given one on. No collection is met twice, so as
many rounds as there are nodes suffice. -/
def goOn : Nat → Nat → Assembling Unit
  | 0, _ => return ()
  | n + 1, next => do
    match (← get).met[next]? with
    | none => return ()
    | some id =>
      goThrough id
      goOn n (next + 1)

end Assembling

/-- What the nodes of a document are. -/
def Document.parts (d : Document) : Except Fault (Array (Option Part)) := do
  let start : Assembly := {
    nodes := d.nodes
    parts := Array.replicate d.nodes.size none
    merges := Node.mergeCount d.nodes }
  let assembling : Assembling Unit := do
    let _ ← Assembling.part d.root
    Assembling.goOn (d.nodes.size + 1) 0
  return (← assembling.run start).2.parts

end DocGraph.Yaml
