import DocGraph.Catalog.Basic
import DocGraph.Text.Case

/-!
# Accessors

A configuration or property that asks for accessors gets a method to read it, a method to set it, and
if it is evented, an event for its changes. What is already documented stays as it is.
-/

namespace DocGraph.Catalog

/-- Whether accessors are asked for. -/
def wantsAccessors (f : Fragment) : Bool :=
  (f.subject = .member .cfg || f.subject = .member .property) && f.accessor

/-- A link to the member itself. -/
def selfLink (f : Fragment) : String := "\x7b@link #" ++ f.subject.name ++ "-" ++ f.name ++ "\x7d"

/-- A member made from a property, with what the two have in common. -/
def derived (f : Fragment) (key : MemberKey) (doc : String) (params : List Param)
    (returns : Option Returns) : Fragment :=
  { f with
    subject := .member key.kind
    name := key.name
    doc, params, returns
    type := ""
    defaultValue := none
    accessor := false
    evented := false
    chainable := false
    inherits := none }

/-- The key of the method that reads a property. -/
def getterKey (f : Fragment) : MemberKey := ⟨.method, "get" ++ Text.capitalizeFirst f.name⟩

/-- The key of the method that sets a property. -/
def setterKey (f : Fragment) : MemberKey := ⟨.method, "set" ++ Text.capitalizeFirst f.name⟩

/-- The key of the event for changes of a property. -/
def changeKey (f : Fragment) : MemberKey := ⟨.event, Text.lower f.name ++ "change"⟩

/-- The method that reads a property. -/
def getter (f : Fragment) : Fragment :=
  derived f (getterKey f) ("Returns the value of " ++ selfLink f ++ ".") []
    (some { type := f.type })

/-- The method that sets a property. -/
def setter (f : Fragment) : Fragment :=
  derived f (setterKey f) ("Sets the value of " ++ selfLink f ++ ".")
    [{ name := f.name, type := f.type, doc := "The new value." }] none

/-- The event for changes of a property. -/
def changeEvent (f : Fragment) : Fragment :=
  derived f (changeKey f) ("Fires when the " ++ selfLink f ++ " configuration is changed.")
    [{ name := "this", type := f.class?.getD "Object", doc := "The instance." },
      { name := "value", type := f.type, doc := "The new value being set." },
      { name := "oldValue", type := f.type, doc := "The existing value." }] none

/-- The members made from a property. -/
def accessorsOf (f : Fragment) : List (MemberKey × Fragment) :=
  [(getterKey f, getter f), (setterKey f, setter f)] ++
    if f.evented then [(changeKey f, changeEvent f)] else []

/-- A record with the accessors of its properties. -/
def supplyAccessors (r : Record) : Record :=
  ((r.members.values.filter wantsAccessors).flatMap accessorsOf).foldl
    (fun r m => r.supply m.1 m.2) r

/-- A catalog with the accessors of all properties. -/
def addAccessors (c : Catalog) : Enriched where
  classes := c.map fun _ r => supplyAccessors r

end DocGraph.Catalog
