import DocGraph.Json
import DocGraph.Value.Order
import DocGraph.Value.Text

/-!
# Values as JSON

A value becomes a JSON tree if its mappings have keys that JSON knows and no loop is among its parts. A
*plain* tree keeps the order of keys and has no form for days and times. A *canonical* tree has its keys
in rising order and shows days and times as texts, so that it does not depend on the order in which a
mapping was written. Each list and each mapping is a call within the one around it, so a value that is too
deep for the room there is has no tree.

Of several faults the first one counts: the keys of a mapping are put in order before its pairs are
gone through, each key before its value.
-/

namespace DocGraph

namespace Scalar

/-- The text of a key in JSON. -/
def jsonKey : Scalar → Except Fault String
  | .null => .ok "null"
  | .bool b => .ok (if b then "true" else "false")
  | .int n => if Number.isWritable n then .ok (toString n) else .error (.tooManyDigits none)
  | .float x => .ok (Json.floatLayout.write x)
  | .nan _ => .ok Json.floatLayout.nan
  | .text s => .ok s
  | .date _ | .time _ => .error .wrongType

/-- The JSON of a scalar, with room for some calls; `shownDays` tells whether days and times have one. They
are shown by a call of their own. -/
def json (shownDays : Bool) (room : Nat) : Scalar → Except Fault Json
  | .null => .ok .null
  | .bool b => .ok (.bool b)
  | .int n => if Number.isWritable n then .ok (.int n) else .error (.tooManyDigits none)
  | .float x => .ok (.float x)
  | .nan _ => .ok (.float (0.0 / 0.0))
  | .text s => .ok (.text s)
  | s =>
    if shownDays then deeper (1 + s.shownCalls) room fun _ => .ok (.text s.shown)
    else .error .wrongType

end Scalar

namespace Value

/-- The calls for putting pairs in order. One is enough to compare keys, if there are two of them. -/
def orderCalls {α : Type} (ps : List α) : Nat := if 1 < ps.length then 1 else 0

/-- Pairs whose keys are in rising order if that is wanted, with room for some calls. -/
def pairsInOrder {α : Type} (inOrder : Bool) (room : Nat) (ps : List (Scalar × α)) :
    Except Fault (List (Scalar × α)) :=
  if inOrder then deeper (orderCalls ps) room fun _ => Scalar.arranged Prod.fst ps else .ok ps

/-- A pair of an object, for a key and what its value gives. -/
def jsonPair (p : Scalar × Except Fault Json) : Except Fault (String × Json) :=
  return (← p.1.jsonKey, ← p.2)

mutual

/-- The JSON tree of a value, canonical or plain, with room for some calls. -/
def json (canonical : Bool) (room : Nat) : Value → Except Fault Json
  | .scalar s => s.json canonical room
  | .list xs => deeper 1 room fun room => return .array (← jsonList canonical room xs)
  | .map ps => deeper 1 room fun room => do
    let ps ← pairsInOrder canonical room (jsonPairs canonical room ps)
    return .object (← ps.mapM jsonPair)
  | .loop _ body => json canonical room body
  | .again _ => deeper 1 room fun _ => .error .circular

/-- The JSON trees of the items of a list. -/
def jsonList (canonical : Bool) (room : Nat) : List Value → Except Fault (List Json)
  | [] => .ok []
  | v :: vs => return (← json canonical room v) :: (← jsonList canonical room vs)

/-- The keys of a mapping and what their values give. -/
def jsonPairs (canonical : Bool) (room : Nat) :
    List (Scalar × Value) → List (Scalar × Except Fault Json)
  | [] => []
  | (key, v) :: ps => (key, json canonical room v) :: jsonPairs canonical room ps

end

/-- The plain JSON tree of a value. -/
def plainJson (v : Value) : Except Fault Json := v.json false callRoom

/-- The canonical JSON tree of a value, with room for some calls. -/
def canonicalJson (room : Nat) (v : Value) : Except Fault Json := v.json true room

end Value

end DocGraph
