/-!
# Properties of characters as tables of flips

A property of characters is stored as the increasing list of the code points at which it changes,
starting from "does not hold" at zero. A character has the property exactly if an odd number of
changes lie at or below it.
-/

namespace DocGraph.Text

/-- Whether the property stored in `flips` holds of `c`. -/
def holdsAt (flips : List Nat) (c : Char) : Bool :=
  flips.countP (· ≤ c.toNat) % 2 == 1

@[simp] theorem holdsAt_nil (c : Char) : holdsAt [] c = false := rfl

end DocGraph.Text
