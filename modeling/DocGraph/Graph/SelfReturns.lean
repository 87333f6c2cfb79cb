import DocGraph.Graph.Basic
import DocGraph.Text.Case

/-!
# Methods that return their object

A method that is chainable, or that is said to return `this`, returns its own class. So does a
constructor of which nothing is said.
-/

namespace DocGraph

/-- The word for the object itself. -/
def selfWord : String := "this"

/-- The name of constructors. -/
def constructorName : String := "constructor"

/-- What a method returns, with the object itself replaced by its class. -/
def Member.selfReturns (m : Member) (cls : String) : Option Returns :=
  match m.returns with
  | some r =>
    if m.chainable || Text.lower r.type = selfWord then some { r with type := cls } else some r
  | none =>
    if m.chainable || m.name = constructorName then some ⟨cls, selfWord⟩ else none

/-- Settle what all methods return. -/
def ClassGraph.settleReturns (g : ClassGraph) : ClassGraph :=
  g.mapClasses (fun c =>
    c.mapMembers (fun m =>
      if m.kind = .method then { m with returns := m.selfReturns c.name } else m) fun m => by
        split <;> rfl)
    fun _ => rfl

end DocGraph
