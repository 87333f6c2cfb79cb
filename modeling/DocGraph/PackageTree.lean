import DocGraph.Name
import DocGraph.Text.Case
import DocGraph.Value.Basic

/-!
# Package trees

The classes by package, as a tree for navigation. In every package, the packages inside it come
first, then the classes, both in the order of their texts without regard to case.
-/

namespace DocGraph

/-- A package with what it holds, or a class. -/
inductive PackageNode
  | package (name : String) (children : List PackageNode)
  | leaf (text url icon : String)
  deriving Repr

namespace PackageNode

/-- The text shown for a node. -/
def text : PackageNode → String
  | .package name _ => Name.short name
  | .leaf text _ _ => text

/-- Whether a node is a class. -/
def isLeaf : PackageNode → Bool
  | .package _ _ => false
  | .leaf _ _ _ => true

/-! ### Building -/

/-- Change what the package of the given name holds. If it is not there it is added at the end. -/
def inPackage (name : String) (change : List PackageNode → List PackageNode) :
    List PackageNode → List PackageNode
  | [] => [.package name (change [])]
  | .package n children :: nodes =>
    if n = name then .package n (change children) :: nodes
    else .package n children :: inPackage name change nodes
  | node :: nodes => node :: inPackage name change nodes

/-- Add a node inside the given packages, from the outermost to the innermost. -/
def place (node : PackageNode) : List String → List PackageNode → List PackageNode
  | [], nodes => nodes ++ [node]
  | name :: names, nodes => inPackage name (place node names) nodes

/-! ### Order -/

/-- Whether one node may stand before another one: packages before classes, then by text. -/
def atMost (a b : PackageNode) : Bool :=
  if a.isLeaf = b.isLeaf then decide (Text.lower a.text ≤ Text.lower b.text) else b.isLeaf

mutual

/-- A node with everything inside it in order. -/
def sorted : PackageNode → PackageNode
  | .package name children => .package name ((sortedList children).mergeSort atMost)
  | .leaf text url icon => .leaf text url icon

/-- Nodes with everything inside them in order. -/
def sortedList : List PackageNode → List PackageNode
  | [] => []
  | node :: nodes => node.sorted :: sortedList nodes

end

/-! ### Values -/

mutual

/-- A node as a value. -/
def value : PackageNode → Value
  | .package name children => Value.record [
      ("text", .text (Name.short name)), ("iconCls", .text "icon-pkg"),
      ("children", .list (valueList children))]
  | .leaf text url icon => Value.record [
      ("text", .text text), ("url", .text url), ("iconCls", .text icon), ("leaf", .bool true)]

/-- Nodes as values. -/
def valueList : List PackageNode → List Value
  | [] => []
  | node :: nodes => node.value :: valueList nodes

end

end PackageNode

/-- What a package tree shows of a class. -/
structure PackageEntry where
  name : String
  singleton : Bool

/-- The nodes at the root of a package tree. -/
abbrev PackageTree := List PackageNode

namespace PackageTree

/-- The icon of a class. -/
def iconOf (icons : List (String × String)) (e : PackageEntry) : String :=
  (icons.lookup e.name).getD (if e.singleton then "icon-singleton" else "icon-class")

/-- The leaf of a class, which links to its page. -/
def leafOf (apiRoot : String) (icons : List (String × String)) (e : PackageEntry) : PackageNode :=
  .leaf (Name.short e.name) (apiRoot ++ "/" ++ e.name) (iconOf icons e)

/-- The package tree of classes. -/
def build (apiRoot : String) (icons : List (String × String)) (es : List PackageEntry) :
    PackageTree :=
  let nodes := es.foldl (fun nodes e =>
    PackageNode.place (leafOf apiRoot icons e) (Name.packages e.name) nodes) []
  (PackageNode.sortedList nodes).mergeSort PackageNode.atMost

/-- A package tree as a value. -/
def value (t : PackageTree) : Value := Value.record [
  ("text", .text "Root"), ("children", .list (PackageNode.valueList t))]

end PackageTree

end DocGraph
