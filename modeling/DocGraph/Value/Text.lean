import DocGraph.Number.Layout
import DocGraph.Text.Blank
import DocGraph.Value.Basic

/-!
# Values as text

Two written forms. The *shown* form of a scalar is the bare text; the *inspected* form is the one used
inside brackets, where texts are quoted and days are spelt out. Documentation text is made of a value
by `Value.asText`: lists at any depth become lines, and nothing blank is kept.

A loop is inspected once; where it comes again inside itself there are three dots in its brackets. A
list that contains itself by way of lists alone has no end of lines and so no documentation text, nor
has a whole number with more digits than are written.

Parts of parts are written by calls within calls, and only so many of them may be under way at a time. What
takes more than there is *room* for has no text.
-/

namespace DocGraph

/-! ### Calls within calls -/

/-- The room that is left for calls where a value is written out. A thousand calls may be under way; some
ten of them are those that have led to the value. -/
def callRoom : Nat := 990

/-- What is done behind some more calls, given the room that they leave. -/
def deeper {α : Type} (calls room : Nat) (f : Nat → Except Fault α) : Except Fault α :=
  if calls ≤ room then f (room - calls) else .error .endless

theorem deeper_of_le {α : Type} {calls room : Nat} (h : calls ≤ room) (f : Nat → Except Fault α) :
    deeper calls room f = f (room - calls) := if_pos h

@[simp] theorem deeper_eq_ok {α : Type} {calls room : Nat} {f : Nat → Except Fault α} {a : α} :
    deeper calls room f = .ok a ↔ calls ≤ room ∧ f (room - calls) = .ok a := by
  by_cases h : calls ≤ room <;> simp [deeper, h]

theorem deeper_eq_error {α : Type} {calls room : Nat} {f : Nat → Except Fault α} {e : Fault}
    (h : deeper calls room f = .error e) : e = .endless ∨ f (room - calls) = .error e := by
  rw [deeper] at h
  split at h
  · exact .inr h
  · exact .inl (Except.error.inj h).symm

/-! ### Scalars -/

/-- Floating-point numbers are positional from a ten-thousandth to below ten quadrillions, and the
exponent has at least two digits. -/
def Scalar.floatLayout : Number.Layout where
  positionalFrom := -4
  positionalTo := 16
  exponentDigits := 2
  nan := "nan"
  infinity := "inf"

namespace Scalar

/-- The offset of a point in time, spelt out. -/
def inspectOffset : Option Int → String
  | none => ""
  | some 0 => ", tzinfo=datetime.timezone.utc"
  | some m => ", tzinfo=datetime.timezone(datetime.timedelta(" ++ offsetParts m ++ "))"

/-- The parts of a day or a time, separated by commas. -/
def inspectParts (ns : List Nat) : String := ", ".intercalate (ns.map fun n => toString n)

/-- The parts of a point in time; seconds and their fraction are left out if they are zero. -/
def timeParts (t : Timestamp) : List Nat :=
  [t.date.year, t.date.month, t.date.day, t.hour, t.minute] ++
    (if t.microsecond = 0 then if t.second = 0 then [] else [t.second]
      else [t.second, t.microsecond])

/-- The bare text of a scalar. -/
def shown : Scalar → String
  | .null => "None"
  | .bool b => if b then "True" else "False"
  | .int n => toString n
  | .float x => floatLayout.write x
  | .nan _ => floatLayout.nan
  | .text s => s
  | .date d => d.text
  | .time t => t.text

/-- A scalar as it stands inside brackets. -/
def inspect : Scalar → String
  | .text s => Text.quoted s
  | .date d => "datetime.date(" ++ inspectParts [d.year, d.month, d.day] ++ ")"
  | .time t => "datetime.datetime(" ++ inspectParts (timeParts t) ++ inspectOffset t.offset ++ ")"
  | s => s.shown

/-- Whether a scalar has a text. -/
def isWritable : Scalar → Bool
  | .int n => Number.isWritable n
  | _ => true

/-- The calls for the bare text of a scalar. Days and times have it made of their parts. -/
def shownCalls : Scalar → Nat
  | .date _ => 2
  | .time t => if t.offset.isSome then 3 else 2
  | _ => 1

/-- The calls for a scalar inside brackets. The offset of a time is a value of its own, and unless it is
zero, so is its distance. -/
def inspectCalls : Scalar → Nat
  | .time t => match t.offset with
    | none => 1
    | some m => if m = 0 then 2 else 3
  | _ => 1

/-- A scalar as it stands inside brackets, with room for some calls. -/
def inspectWithin (room : Nat) (s : Scalar) : Except Fault String :=
  deeper s.inspectCalls room fun _ =>
    if s.isWritable then .ok s.inspect else .error (.tooManyDigits none)

/-- The documentation text of a scalar, with room for some calls. -/
def asTextWithin (room : Nat) : Scalar → Except Fault String
  | .null => .ok ""
  | .text s => .ok (Text.trim s)
  | s => deeper s.shownCalls room fun _ =>
    if s.isWritable then .ok (Text.trim s.shown) else .error (.tooManyDigits none)

end Scalar

namespace Value

/-! ### Inspected values -/

/-- What stands for a loop inside itself. -/
def dots (isMap : Bool) : String := if isMap then "\x7b...\x7d" else "[...]"

mutual

/-- A value in brackets, its texts quoted, inside the loops with the given labels, of which some are
mappings, and with room for some calls. -/
def inspectIn (around : List (Nat × Bool)) (room : Nat) : Value → Except Fault String
  | .scalar s => s.inspectWithin room
  | .list xs => deeper 1 room fun room =>
    return "[" ++ ", ".intercalate (← inspectList around room xs) ++ "]"
  | .map ps => deeper 1 room fun room =>
    return "\x7b" ++ ", ".intercalate (← inspectPairs around room ps) ++ "\x7d"
  | .loop label body =>
    match around.lookup label with
    | some isMap => deeper 1 room fun _ => .ok (dots isMap)
    | none => inspectIn ((label, body.isMap) :: around) room body
  | .again label => deeper 1 room fun _ => .ok (dots ((around.lookup label).getD false))

/-- The items of a list, inspected. -/
def inspectList (around : List (Nat × Bool)) (room : Nat) : List Value → Except Fault (List String)
  | [] => .ok []
  | v :: vs => return (← inspectIn around room v) :: (← inspectList around room vs)

/-- The pairs of a mapping, inspected. -/
def inspectPairs (around : List (Nat × Bool)) (room : Nat) :
    List (Scalar × Value) → Except Fault (List String)
  | [] => .ok []
  | (key, v) :: ps => do
    let pair := (← key.inspectWithin room) ++ ": " ++ (← inspectIn around room v)
    return pair :: (← inspectPairs around room ps)

end

/-- A value in brackets, its texts quoted, with room for some calls. -/
def inspectWithin (room : Nat) (v : Value) : Except Fault String := inspectIn [] room v

/-- A value in brackets, its texts quoted. -/
def inspect (v : Value) : Except Fault String := v.inspectWithin callRoom

/-! ### Documentation text -/

/-- A value in which the loops around it have taken the places of their labels. -/
def closed (around : List (Nat × Value)) (v : Value) : Value :=
  around.foldl (fun v p => fill p.1 p.2 v) v

mutual

/-- The documentation text of a value inside some lists that are loops, with room for some calls. An item of
a list is three calls behind the list. -/
def asTextIn (around : List (Nat × Value)) (room : Nat) : Value → Except Fault String
  | .scalar s => deeper 1 room fun room => s.asTextWithin room
  | .list xs => deeper 3 room fun room => return "\n".intercalate (← asTextsIn around room xs)
  | .map ps => deeper 1 room fun room =>
    return Text.trim (← (closed around (.map ps)).inspectWithin room)
  | .loop label body =>
    if body.isMap then deeper 1 room fun room =>
      return Text.trim (← (closed around (.loop label body)).inspectWithin room)
    else asTextIn ((label, closed around (.loop label body)) :: around) room body
  | .again _ => .error .endless

/-- The documentation texts of the items of a list, without the empty ones. -/
def asTextsIn (around : List (Nat × Value)) (room : Nat) :
    List Value → Except Fault (List String)
  | [] => .ok []
  | v :: vs => do
    let text ← asTextIn around room v
    let texts ← asTextsIn around room vs
    return if text.isEmpty then texts else text :: texts

end

/-- The documentation text of a value, with room for some calls: blanks at the ends are dropped, null is
empty, and a list gives one line for each part that is not empty. -/
def asTextWithin (room : Nat) (v : Value) : Except Fault String := asTextIn [] room v

/-- The documentation text of a value. -/
def asText (v : Value) : Except Fault String := v.asTextWithin callRoom

/-- The documentation text of a value, if it is not empty. -/
def asText? (v : Value) : Except Fault (Option String) := do
  let text ← v.asText
  return if text.isEmpty then none else some text

/-- The documentation text of a field, empty if there is no such field. -/
def textOf (ps : List (Scalar × Value)) (name : String) : Except Fault String :=
  (fieldOf ps name).asText

/-- The documentation text of a field, if it is not empty. -/
def textOf? (ps : List (Scalar × Value)) (name : String) : Except Fault (Option String) :=
  (fieldOf ps name).asText?

end Value

end DocGraph
