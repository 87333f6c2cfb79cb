import DocGraph.Graph.Basic
import DocGraph.Graph.Search
import DocGraph.PackageTree

/-!
# Exports

The finished graph as plain data: every class with its relations in both directions, the stubs, the
diagnostics, and if it is wanted, the package tree. Classes and lists of classes that a class is
related to from the other side are in the order of names.
-/

namespace DocGraph

/-! ### Parts -/

namespace Param

/-- A parameter as a value. -/
def value (p : Param) : Value := Value.record [
  ("name", .text p.name), ("type", .text p.type), ("doc", .text p.doc),
  ("optional", .bool p.optional), ("default", Value.optionalText p.defaultValue)]

end Param

/-- What a method returns as a value. -/
def Returns.value (r : Returns) : Value := Value.record [("type", .text r.type), ("doc", .text r.doc)]

/-- A value of an enumeration as a value. -/
def EnumValue.toValue (v : EnumValue) : Value := Value.record [
  ("name", .text v.name), ("value", Value.optionalText v.value), ("doc", .text v.doc),
  ("type", .text v.type)]

/-- An enumeration as a value. -/
def EnumSpec.value (e : EnumSpec) : Value := Value.record [
  ("type", .text e.type), ("values", .list (e.values.map EnumValue.toValue))]

/-- A diagnostic as a value. -/
def Diagnostic.value (d : Diagnostic) : Value := Value.record [
  ("kind", .text d.kind.name), ("message", .text d.message),
  ("class_name", Value.optionalText d.cls), ("member", Value.optionalText d.member),
  ("filename", .text d.file), ("linenr", .int d.line)]

/-- A member as a value. -/
def Member.value (m : Member) : Value := Value.record [
  ("name", .text m.name), ("tagname", .text m.kind.name), ("owner", .text m.owner),
  ("doc", .text m.doc), ("params", .list (m.params.map Param.value)),
  ("return", (m.returns.map Returns.value).getD .null), ("type", .text m.type),
  ("default", Value.optionalText m.defaultValue), ("static", .bool m.static),
  ("private", .bool m.isPrivate),
  ("inherited_from", Value.optionalText (m.inheritedFrom.map MemberRef.text)),
  ("since", m.resolvedSince), ("new", .bool m.isNew)]

/-! ### Classes -/

/-- A class with its relations. -/
structure ClassEntry where
  name : String
  parent : Option String
  superclasses : List String
  subclasses : List String
  mixins : List String
  mixedInto : List String
  alternateNames : List String
  doc : String
  singleton : Bool
  isPrivate : Bool
  since : Value
  enumeration : Option EnumSpec
  members : List Member

/-- A class as a value. -/
def ClassEntry.value (c : ClassEntry) : Value :=
  let texts (xs : List String) : Value := .list (xs.map Value.text)
  Value.record [
    ("name", .text c.name), ("extends", Value.optionalText c.parent),
    ("superclasses", texts c.superclasses), ("subclasses", texts c.subclasses),
    ("mixins", texts c.mixins), ("mixedInto", texts c.mixedInto),
    ("alternateClassNames", texts c.alternateNames), ("doc", .text c.doc),
    ("singleton", .bool c.singleton), ("private", .bool c.isPrivate), ("since", c.since),
    ("enum", (c.enumeration.map EnumSpec.value).getD .null),
    ("members", .list (c.members.map Member.value))]

/-! ### Graphs -/

/-- A graph as plain data. -/
structure GraphExport where
  classes : List ClassEntry
  external : List Scalar
  unresolved : List String
  diagnostics : List Diagnostic
  tree : Option PackageTree

/-- An exported graph as a value. -/
def GraphExport.value (e : GraphExport) : Value := Value.record <|
  [("classes", .list (e.classes.map ClassEntry.value)),
    ("external", .list (e.external.map Value.scalar)),
    ("unresolved", .list (e.unresolved.map Value.text)),
    ("diagnostics", .list (e.diagnostics.map Diagnostic.value))] ++
  (e.tree.map fun t => ("packageTree", t.value)).toList

namespace ClassGraph

/-- The classes in the order of their names. -/
def sortedClasses (g : ClassGraph) : List DocClass :=
  g.classes.mergeSort fun a b => decide (a.name ≤ b.name)

/-- A class with its relations. -/
def entry (g : ClassGraph) (c : DocClass) : ClassEntry where
  name := c.name
  parent := g.parentOf c.name
  superclasses := (g.ancestorNames c.name).reverse
  subclasses := Catalog.inOrder ((g.subclasses c.name).map DocClass.name)
  mixins := g.mixinsOf c.name
  mixedInto := Catalog.inOrder ((g.mixedInto c.name).map DocClass.name)
  alternateNames := c.alternateNames
  doc := c.doc
  singleton := c.singleton
  isPrivate := c.isPrivate
  since := c.resolvedSince
  enumeration := c.enumeration
  members := c.members.values

/-- The package tree of a graph. -/
def packageTree (g : ClassGraph) : PackageTree :=
  PackageTree.build "/api" [] (g.sortedClasses.map fun c => ⟨c.name, c.singleton⟩)

/-- The graph as plain data. -/
def plainData (g : ClassGraph) (diagnostics : List Diagnostic) (withTree : Bool) : GraphExport where
  classes := g.sortedClasses.map g.entry
  external := (Catalog.inOrder g.external).map Scalar.text ++ g.registeredOther
  unresolved := Catalog.inOrder g.unresolved
  diagnostics
  tree := if withTree then some g.packageTree else none

end ClassGraph

end DocGraph
