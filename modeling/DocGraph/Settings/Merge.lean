import DocGraph.Settings.Basic

/-!
# Merging settings

Settings are laid over other settings key by key. Where both hold a mapping, the two are merged in
turn; the names of external classes are united; anything else is replaced. Keys keep their places, and
new ones follow.

A mapping can also be laid over a list. Its keys then have to be places in the list.
-/

namespace DocGraph.Settings

/-- The key whose lists are united. -/
def externalKey : Scalar := .text "external_classes"

/-- The scalars of two lists in rising order, each once. -/
def unite (xs ys : List Value) : Except Fault Value := do
  let members ← (xs ++ ys).mapM Value.scalar?
  return .list ((← Scalar.sorted (Scalar.distinct members)).map Value.scalar)

/-- The pairs whose keys are not among those of other pairs. -/
def newPairs (ps qs : List (Scalar × Value)) : List (Scalar × Value) :=
  qs.filter fun q => (Value.find? ps q.1).isNone

mutual

/-- What a key holds after a value is laid over the one that it has held. The value below is a tree, as all
parts of the default settings are: a mapping that contains itself is not opened here, but replaced. -/
def mergeValue (key : Scalar) (new : Value) : Value → Except Fault Value
  | .map ps =>
    match new.opened with
    | .map qs => return .map ((← mergeHeld qs ps) ++ newPairs ps qs)
    | _ => .ok new
  | .list xs =>
    match new.opened with
    | .list ys => if key.same externalKey then unite xs ys else .ok new
    | _ => .ok new
  | _ => .ok new

/-- Lay some pairs over others, which keep the places they have. -/
def mergeHeld (qs : List (Scalar × Value)) :
    List (Scalar × Value) → Except Fault (List (Scalar × Value))
  | [] => .ok []
  | (key, old) :: ps => do
    let new ← match Value.find? qs key with
      | some v => mergeValue key v old
      | none => pure old
    return (key, new) :: (← mergeHeld qs ps)

end

/-- Lay pairs over others. -/
def mergePairs (ps qs : List (Scalar × Value)) : Except Fault (List (Scalar × Value)) :=
  return (← mergeHeld qs ps) ++ newPairs ps qs

/-! ### Lists -/

/-- The place in a list of the given length that a key is. Places below zero are counted from the
end. -/
def placeOf (length : Nat) (key : Scalar) : Except Fault Nat := do
  let n ← match key with
    | .int n => pure n
    | .bool b => pure (if b then 1 else 0)
    | _ => throw .wrongType
  let place := if n < 0 then n + length else n
  if 0 ≤ place ∧ place < length then return place.toNat else throw .outOfBounds

/-- Whether a key is among the items of a list. -/
def isItem (key : Scalar) (xs : List Value) : Bool :=
  xs.any fun
    | .scalar s => key.same s
    | _ => false

/-- Lay one pair over a list. Where the key is both an item and the place of a mapping, a mapping is
merged with that one. Names of external classes cannot be united with what a list holds. -/
def mergeItem (xs : List Value) (p : Scalar × Value) : Except Fault (List Value) := do
  let old ← if isItem p.1 xs then pure xs[← placeOf xs.length p.1]? else pure none
  let new ← match old.map Value.opened, p.2.opened with
    | some (.map ps), .map qs => pure (Value.map (← mergePairs ps qs))
    | _, .list _ => if p.1.same externalKey then throw .noFields else pure p.2
    | _, _ => pure p.2
  return xs.set (← placeOf xs.length p.1) new

/-- Lay settings over others, which may be a list instead. -/
def mergeInto (base update : Value) : Except Fault Value :=
  match base.opened with
  | .map ps => do return .map (← mergePairs ps (← update.pairs?))
  | .list xs => do return .list (← (← update.pairs?).foldlM mergeItem xs)
  | _ => .error .noFields

end DocGraph.Settings
