import DocGraph.Catalog.Basic

/-!
# Enumerations

A class that is an enumeration gets a static property for each of its values, and its type is
settled: the declared one, or that of the first value or property with a type, or text.
-/

namespace DocGraph.Catalog

/-- The type of enumerations for which nothing tells it. -/
def defaultEnumType : String := "String"

/-- The first text of a list that is not empty. -/
def firstNonempty (texts : List String) : Option String := texts.find? fun s => !s.isEmpty

/-- The type of an enumeration. -/
def enumType (r : Record) (e : EnumSpec) : String :=
  let propertyTypes := (r.members.values.filter (·.subject = .member .property)).map (·.type)
  (firstNonempty (e.type :: e.values.map (·.type) ++ propertyTypes)).getD defaultEnumType

/-- The property for a value of an enumeration of the given type. -/
def valueProperty (r : Record) (type : String) (v : EnumValue) : Fragment where
  subject := .member .property
  name := v.name
  owner := some r.name
  doc := v.doc
  type := if v.type.isEmpty then type else v.type
  defaultValue := v.value
  static := true
  file := r.file
  line := r.line

/-- A record with its type settled and its values as properties. -/
def expandEnumeration (r : Record) : Record :=
  match r.enumeration with
  | none => r
  | some e =>
    let type := enumType r e
    e.values.foldl (fun r' v => r'.supply ⟨.property, v.name⟩ (valueProperty r type v))
      { r with enumeration := some { e with type } }

/-- A catalog with the values of all enumerations. -/
def expandEnumerations (c : Catalog) : Enriched where
  classes := c.map fun _ r => expandEnumeration r

end DocGraph.Catalog
