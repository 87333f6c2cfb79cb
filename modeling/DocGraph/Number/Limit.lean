/-!
# The limit on digits

Whole numbers may be of any size, but their decimal form is read and written only up to a number of
digits that keeps the work small. Bases that are powers of two have no limit.
-/

namespace DocGraph.Number

/-- The most decimal digits of a whole number that is read or written. -/
def digitLimit : Nat := 4300

/-- Whether a whole number has a decimal form within the limit. -/
def isWritable (n : Int) : Bool := decide (n.natAbs < Nat.pow 10 digitLimit)

/-- Whether numbers of a base are read up to the limit only. -/
def isLimited (base : Nat) : Bool := !([2, 4, 8, 16, 32].contains base)

end DocGraph.Number
