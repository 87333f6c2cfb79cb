import DocGraph.Yaml.Node

/-!
# Merge keys

Under a merge key stand mappings whose pairs a mapping takes over: one mapping, or a sequence of them,
of which the first one comes last. The pairs taken over stand before the own ones, so that the own ones
decide. Merged mappings may have merge keys themselves.

A mapping loses its merge keys one after the other, each before what stands under it is looked at. That
is why a mapping can even be merged into itself: it then gives the pairs that it has left.
-/

namespace DocGraph.Yaml

/-- Key and value of a mapping. -/
abbrev NodePair := NodeId × NodeId

namespace Node

/-- The tag of the node at a place. -/
def tagAt (nodes : Array Node) (id : NodeId) : Option Tag := nodes[id]?.map Node.tag

/-- What the node at a place consists of. -/
def contentAt (nodes : Array Node) (id : NodeId) : Option Content := nodes[id]?.map Node.content

/-- The pairs of the mapping at a place. -/
def pairsAt (nodes : Array Node) (id : NodeId) : List NodePair :=
  match contentAt nodes id with
  | some (.mapping ps) => ps
  | _ => []

/-- Whether the key of a pair is a merge key. -/
def isMerge (nodes : Array Node) (p : NodePair) : Bool := tagAt nodes p.1 == some .merge

/-- How many merge keys there are. -/
def mergeCount (nodes : Array Node) : Nat :=
  (nodes.toList.flatMap fun n => match n.content with
    | .mapping ps => ps
    | _ => []).countP (isMerge nodes)

end Node

/-- Changing nodes as merge keys are resolved. -/
abbrev Merging := StateT (Array Node) (Except Fault)

namespace Merging

/-- The pairs that a mapping has. -/
def pairs (id : NodeId) : Merging (List NodePair) := return Node.pairsAt (← get) id

/-- Give other pairs to a mapping. -/
def setPairs (id : NodeId) (ps : List NodePair) : Merging Unit :=
  modify fun nodes => nodes.modify id ({ · with content := .mapping ps })

/-- Take the first merge key out of a mapping, and give what stands under it. -/
def takeMerge (id : NodeId) : Merging (Option NodeId) := do
  let nodes ← get
  match (← pairs id).span fun p => !Node.isMerge nodes p with
  | (_, []) => return none
  | (before, p :: after) =>
    setPairs id (before ++ after)
    return some p.2

/-- Read the marks of default values among the keys of a mapping as texts. -/
def readMarks (id : NodeId) : Merging Unit := do
  for (key, _) in ← pairs id do
    if Node.tagAt (← get) key = some .value then
      modify fun nodes => nodes.modify key ({ · with tag := .text })

/-- Put pairs before those of a mapping. -/
def settle (id : NodeId) (merged : List NodePair) : Merging Unit := do
  readMarks id
  if !merged.isEmpty then setPairs id (merged ++ (← pairs id))

/-- The pairs of a mapping whose merge keys are resolved first, in the given way. -/
def resolved (resolve : NodeId → Merging Unit) (id : NodeId) : Merging (List NodePair) := do
  match Node.contentAt (← get) id with
  | some (.mapping _) =>
    resolve id
    pairs id
  | _ => throw .malformed

/-- The pairs that what stands under a merge key gives. -/
def source (resolve : NodeId → Merging Unit) (id : NodeId) : Merging (List NodePair) := do
  match Node.contentAt (← get) id with
  | some (.sequence items) => return (← items.mapM (resolved resolve)).reverse.flatten
  | _ => resolved resolve id

/-- The pairs that a mapping takes over. With each round there is one merge key less, so as many rounds
as there are merge keys suffice. -/
def taken : Nat → NodeId → Merging (List NodePair)
  | 0, _ => return []
  | n + 1, id => do
    match ← takeMerge id with
    | none => return []
    | some under =>
      let ps ← source (fun id => do settle id (← taken n id)) under
      return ps ++ (← taken n id)

/-- Resolve the merge keys of a mapping, at most as many as given. -/
def resolve (budget : Nat) (id : NodeId) : Merging Unit := do settle id (← taken budget id)

end Merging

end DocGraph.Yaml
