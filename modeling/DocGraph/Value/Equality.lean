import DocGraph.Value.Basic

/-!
# Equality of values

Two scalars are equal by value, two lists item by item, and two mappings by what they hold at each key,
whatever the order. Inside lists and mappings one and the same thing counts as equal to itself even if
it is not a number. The comparison of two loops may have no end; it is given up when it has become too
deep.
-/

namespace DocGraph.Value

/-- Whether two lists have equal items at equal places, by the given comparison. -/
def sameItems (eq : Value → Value → Except Fault Bool) : List Value → List Value → Except Fault Bool
  | [], [] => .ok true
  | v :: vs, w :: ws => do if ← eq v w then sameItems eq vs ws else return false
  | _, _ => .ok false

/-- Whether a mapping holds equal values at all keys of another one, by the given comparison. -/
def heldBy (eq : Value → Value → Except Fault Bool) (qs : List (Scalar × Value)) :
    List (Scalar × Value) → Except Fault Bool
  | [] => .ok true
  | (key, v) :: ps =>
    match find? qs key with
    | some w => do if ← eq v w then heldBy eq qs ps else return false
    | none => .ok false

/-- Whether two values have the same label of a loop. -/
def sameLoop : Value → Value → Bool
  | .loop l _, .loop m _ => l == m
  | _, _ => false

/-- Whether two values are one and the same or equal, as far as the given depth tells. -/
def sameWithin : Nat → Value → Value → Except Fault Bool
  | 0, _, _ => .error .endless
  | depth + 1, v, w =>
    if sameLoop v w then .ok true
    else match v.opened, w.opened with
      | .scalar a, .scalar b => .ok (a.same b)
      | .list xs, .list ys =>
        if xs.length = ys.length then sameItems (sameWithin depth) xs ys else .ok false
      | .map ps, .map qs =>
        if ps.length = qs.length then heldBy (sameWithin depth) qs ps else .ok false
      | _, _ => .ok false

/-- How deep a comparison may go. -/
def comparingDepth : Nat := 1000

/-- Whether two values are equal. -/
def equals (v w : Value) : Except Fault Bool :=
  match v, w with
  | .scalar a, .scalar b => .ok (a.equals b)
  | v, w => sameWithin comparingDepth v w

/-- Whether a value is the given text. -/
def isText (v : Value) (s : String) : Bool :=
  match v with
  | .scalar (.text t) => t == s
  | _ => false

end DocGraph.Value
