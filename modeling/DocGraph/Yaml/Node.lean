import DocGraph.Yaml.Tag
import DocGraph.Yaml.Token

/-!
# Nodes

The nodes of a YAML document. They stand in a row, and the parts of a collection are given by their
places in it, so that an alias is the place of the node that has its anchor: a node may have several
parents, and may even be inside itself. A text holds one document or none.
-/

namespace DocGraph.Yaml

/-- The place of a node in the row of nodes. -/
abbrev NodeId := Nat

/-- What a node consists of. -/
inductive Content
  | scalar (text : String)
  | sequence (items : List NodeId)
  | mapping (pairs : List (NodeId × NodeId))
  deriving Repr

/-- A node of a document. -/
structure Node where
  tag : Tag
  content : Content
  deriving Repr

namespace Node

/-- A node where nothing is written. -/
def empty : Node := ⟨.null, .scalar ""⟩

/-! ### Reading tokens -/

/-- The tokens that are left, the fault behind the last of them, the meanings of tag handles, the nodes
read so far, those that anchors name, and how many collections are open. -/
structure Stream where
  tokens : List Token
  fault : Option Fault
  handles : List (String × String) := []
  nodes : Array Node := #[]
  anchors : List (String × NodeId) := []
  depth : Nat := 0

/-- Reading that uses up tokens. -/
abbrev Reader := StateT Stream (Except Fault)

namespace Reader

/-- The next token, which stays. At the end of tokens that a fault cut short, the fault arises. -/
def peek : Reader (Option Token) := do
  let s ← get
  match s.tokens, s.fault with
  | t :: _, _ => return some t
  | [], none => return none
  | [], some e => throw e

/-- Use up the next token. -/
def drop : Reader Unit := modify fun s => { s with tokens := s.tokens.tail }

/-- Use up the next token if it is the given one. -/
def accept (t : Token) : Reader Bool := do
  if (← peek) = some t then
    drop
    return true
  else return false

/-- Use up the given token, which has to be the next. -/
def expect (t : Token) : Reader Unit := do
  if !(← accept t) then throw .malformed

/-- Whether the next token is one of the given ones. -/
def isNext (ts : List Token) : Reader Bool := do
  match ← peek with
  | some t => return ts.contains t
  | none => return false

end Reader

open Reader

/-! ### Properties -/

/-- An anchor, if one is next. -/
def readAnchor : Reader (Option String) := do
  match ← peek with
  | some (.anchor name) =>
    drop
    return some name
  | _ => return none

/-- A tag, if one is next. -/
def readTag : Reader (Option TagText) := do
  match ← peek with
  | some (.tag t) =>
    drop
    return some t
  | _ => return none

/-- Anchor and tag in either order. -/
def readProperties : Reader (Option String × Option TagText) := do
  match ← readAnchor with
  | some name => return (some name, ← readTag)
  | none =>
    let tag ← readTag
    if tag.isSome then return (← readAnchor, tag) else return (none, none)

/-- The name of a tag with its handle replaced by what it stands for. -/
def tagName (t : TagText) : Reader String := do
  match t.handle with
  | none => return t.suffix
  | some handle =>
    match (← get).handles.lookup handle with
    | none => throw .malformed
    | some meaning => return meaning ++ t.suffix

/-- The tag of a collection: the written one unless it is just an exclamation mark. -/
def collectionTag (written : Option String) (default : Tag) : Tag :=
  match written with
  | none | some "!" => default
  | some name => .ofName name

/-- The tag of a scalar: the written one, or else that of its form if it is plain or marked by a lone
exclamation mark. -/
def scalarTag (written : Option String) (plain : Bool) (text : String) : Tag :=
  match written with
  | none => if plain then .ofPlain text else .text
  | some "!" => .ofPlain text
  | some name => .ofName name

/-! ### Adding nodes -/

/-- Add a node. -/
def add (n : Node) : Reader NodeId :=
  modifyGet fun s => (s.nodes.size, { s with nodes := s.nodes.push n })

/-- Add a node that may have an anchor. An anchor may be used only once. -/
def addAnchored (anchor : Option String) (n : Node) : Reader NodeId := do
  match anchor with
  | none => add n
  | some name =>
    if ((← get).anchors.lookup name).isSome then throw .malformed
    let id ← add n
    modify fun s => { s with anchors := (name, id) :: s.anchors }
    return id

/-- Say what a node consists of, once that is read. -/
def complete (id : NodeId) (content : Content) : Reader NodeId := do
  modify fun s => { s with nodes := s.nodes.modify id ({ · with content }) }
  return id

/-- How many collections may be open inside each other. -/
def depthLimit : Nat := 488

/-- Read the inside of a collection. -/
def inside {α : Type} (r : Reader α) : Reader α := do
  if depthLimit ≤ (← get).depth then throw .endless
  modify fun s => { s with depth := s.depth + 1 }
  let a ← r
  modify fun s => { s with depth := s.depth - 1 }
  return a

/-- A sequence whose items are read. -/
def readSequence (anchor : Option String) (tag : Option String) (items : Reader (List NodeId)) :
    Reader NodeId := do
  let id ← addAnchored anchor ⟨collectionTag tag .sequence, .sequence []⟩
  complete id (.sequence (← inside items))

/-- A mapping whose pairs are read. -/
def readMapping (anchor : Option String) (tag : Option String)
    (pairs : Reader (List (NodeId × NodeId))) : Reader NodeId := do
  let id ← addAnchored anchor ⟨collectionTag tag .mapping, .mapping []⟩
  complete id (.mapping (← inside pairs))

/-- The node that an alias stands for. -/
def aliased (name : String) : Reader NodeId := do
  match (← get).anchors.lookup name with
  | none => throw .malformed
  | some id => return id

/-! ### Nodes -/

/-- Where a node stands: in a block, in a block at a place where hyphens need no indentation, or in
brackets. -/
inductive Place
  | block
  | blockValue
  | bracket
  deriving DecidableEq

mutual

/-- The node that begins here. Every call below uses up a token or goes down to one that does, so
four calls for each token suffice. -/
def read : Nat → Place → Reader NodeId
  | 0, _ => throw .malformed
  | n + 1, place => do
    match ← peek with
    | some (.alias name) =>
      drop
      aliased name
    | _ =>
      let (anchor, tagText) ← readProperties
      let tag ← tagText.mapM tagName
      let next ← peek
      if place = .blockValue ∧ next = some .item then
        readSequence anchor tag (readLooseItems n)
      else match next with
        | some (.scalar plain text) =>
          drop
          addAnchored anchor ⟨scalarTag tag plain text, .scalar text⟩
        | some .openSequence =>
          readSequence anchor tag (do drop; readBracketItems n true)
        | some .openMapping =>
          readMapping anchor tag (do drop; readBracketPairs n true)
        | some .blockSequence =>
          if place = .bracket then throw .malformed
          readSequence anchor tag (do drop; readItems n)
        | some .blockMapping =>
          if place = .bracket then throw .malformed
          readMapping anchor tag (do drop; readPairs n)
        | _ =>
          if anchor.isSome || tag.isSome then
            addAnchored anchor ⟨scalarTag tag true "", .scalar ""⟩
          else throw .malformed

/-- A node, or nothing if one of the given tokens is next. -/
def readUnless : Nat → Place → List Token → Reader NodeId
  | 0, _, _ => throw .malformed
  | n + 1, place, stops => do
    if ← isNext stops then add empty else read n place

/-- The items of a block sequence. -/
def readItems : Nat → Reader (List NodeId)
  | 0 => throw .malformed
  | n + 1 => do
    if ← accept .item then
      let item ← readUnless n .block [.item, .blockEnd]
      return item :: (← readItems n)
    else
      expect .blockEnd
      return []

/-- The items of a sequence that is not indented further than the mapping around it. -/
def readLooseItems : Nat → Reader (List NodeId)
  | 0 => throw .malformed
  | n + 1 => do
    if ← accept .item then
      let item ← readUnless n .block [.item, .key, .value, .blockEnd]
      return item :: (← readLooseItems n)
    else return []

/-- The value of a pair in a block mapping, if one is written. -/
def readBlockValue : Nat → Reader NodeId
  | 0 => throw .malformed
  | n + 1 => do
    if ← accept .value then readUnless n .blockValue [.key, .value, .blockEnd]
    else add empty

/-- The pairs of a block mapping. -/
def readPairs : Nat → Reader (List (NodeId × NodeId))
  | 0 => throw .malformed
  | n + 1 => do
    if ← accept .key then
      let key ← readUnless n .blockValue [.key, .value, .blockEnd]
      let value ← readBlockValue n
      return (key, value) :: (← readPairs n)
    else
      expect .blockEnd
      return []

/-- The value of a pair in brackets that are closed by the given token, if one is written. -/
def readBracketValue : Nat → Token → Reader NodeId
  | 0, _ => throw .malformed
  | n + 1, closing => do
    if ← accept .value then readUnless n .bracket [.comma, closing]
    else add empty

/-- The items of a sequence in brackets. A pair among them is a mapping of its own. -/
def readBracketItems : Nat → Bool → Reader (List NodeId)
  | 0, _ => throw .malformed
  | n + 1, first => do
    if ← accept .closeSequence then return []
    if !first then expect .comma
    if ← isNext [.key] then
      let pair ← readMapping none none do
        drop
        let key ← readUnless n .bracket [.value, .comma, .closeSequence]
        let value ← readBracketValue n .closeSequence
        return [(key, value)]
      return pair :: (← readBracketItems n false)
    else if ← accept .closeSequence then return []
    else
      let item ← read n .bracket
      return item :: (← readBracketItems n false)

/-- The pairs of a mapping in brackets. A node that is not followed by a value has none. -/
def readBracketPairs : Nat → Bool → Reader (List (NodeId × NodeId))
  | 0, _ => throw .malformed
  | n + 1, first => do
    if ← accept .closeMapping then return []
    if !first then expect .comma
    if ← accept .key then
      let key ← readUnless n .bracket [.value, .comma, .closeMapping]
      let value ← readBracketValue n .closeMapping
      return (key, value) :: (← readBracketPairs n false)
    else if ← accept .closeMapping then return []
    else
      let key ← read n .bracket
      return (key, ← add empty) :: (← readBracketPairs n false)

end

/-! ### Documents -/

/-- Note a version, of which only the first is known and only one may be given. -/
def noteVersion (seen : Bool) (major : Nat) : Reader Bool := do
  if seen || major != 1 then throw .malformed
  return true

/-- Note the meaning of a handle, of which each has only one. -/
def noteHandle (handle meaning : String) : Reader Unit := do
  if ((← get).handles.lookup handle).isSome then throw .malformed
  modify fun s => { s with handles := (handle, meaning) :: s.handles }

/-- Read the directives before a document. Each takes a token, so as many rounds as there are tokens
suffice. -/
def readDirectives : Nat → Bool → Reader Unit
  | 0, _ => return ()
  | n + 1, seen => do
    match ← peek with
    | some (.directive d) =>
      drop
      let seen ← match d with
        | .version major => noteVersion seen major
        | .tag handle meaning => do
          noteHandle handle meaning
          pure seen
        | .other => pure seen
      readDirectives n seen
    | _ => return ()

/-- Pass over marks of the end of a document. -/
def skipEnds : Nat → Reader Unit
  | 0 => return ()
  | n + 1 => do if ← accept .documentEnd then skipEnds n

/-- Whether a token is a directive. -/
def isDirective : Token → Bool
  | .directive _ => true
  | _ => false

/-- The meanings that handles have in every document. -/
def standardHandles : List (String × String) := [("!", "!"), ("!!", Tag.family)]

/-- The root of a document that begins with its mark, after directives. -/
def readMarked (budget : Nat) : Reader NodeId := do
  readDirectives budget false
  modify fun s => { s with handles := s.handles ++ standardHandles }
  expect .documentStart
  match ← peek with
  | none => add empty
  | some t =>
    if t = .documentStart ∨ t = .documentEnd ∨ isDirective t then add empty
    else read budget .block

/-- The root of a document that begins without a mark. -/
def readBare (budget : Nat) : Reader NodeId := do
  modify fun s => { s with handles := standardHandles }
  read budget .block

/-- Make sure that nothing but marks of its end comes after a document. -/
def readEnd (budget : Nat) : Reader Unit := do
  skipEnds budget
  if (← peek).isSome then
    modify fun s => { s with handles := [] }
    readDirectives budget false
    let _ ← peek
    throw .malformed

/-- The root of the only document, if there is one. -/
def readDocument : Reader (Option NodeId) := do
  let budget := 4 * (← get).tokens.length + 4
  match ← peek with
  | none => return none
  | some t =>
    let root ← if t = .documentStart || isDirective t then readMarked budget else readBare budget
    readEnd budget
    return some root

end Node

/-- The nodes of a document and the place of the one that holds all others. -/
structure Document where
  nodes : Array Node
  root : NodeId

/-- The document in a text; nothing if the text holds none. -/
def Document.ofText (text : String) : Except Fault (Option Document) := do
  let (tokens, fault) := Token.ofText text
  let (root, s) ← Node.readDocument.run { tokens, fault }
  return root.map fun root => ⟨s.nodes, root⟩

end DocGraph.Yaml
