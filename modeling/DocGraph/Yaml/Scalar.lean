import DocGraph.Text.Case
import DocGraph.Value.Basic
import DocGraph.Yaml.Tag

/-!
# Scalars

What a text is as the tag of its node says. The form that gave a plain text its tag is not looked at
again: a text under a written tag may have any form, and is read as far as its tag has a meaning for it.
-/

namespace DocGraph.Yaml

/-- Read a whole number in a base, or say that the text is none. -/
def wholeNumber (base : Nat) (s : List Char) : Except Fault Int :=
  let text := String.ofList s
  match Number.integer base text with
  | .ok n => .ok n
  | .error .form => .error (.notInteger base text)
  | .error (.digits count) => .error (.tooManyDigits count)

/-- Read a floating-point number, or say that the text is none. -/
def fractional (s : List Char) : Except Fault Float :=
  let text := String.ofList s
  match Number.float? text with
  | some x => .ok x
  | none => .error (.notDecimal text)

/-- The parts of a text between colons. -/
def colonParts (s : List Char) : List (List Char) := s.splitOn ':'

/-- A whole number: underscores do not matter; a leading zero and letter give the base, and colons
separate digits of base sixty. -/
def intScalar (text : String) : Except Fault Int := do
  let s := text.toList.filter (· ≠ '_')
  if s.isEmpty then .error .emptyNumber
  let (negative, s) := Number.splitSign s
  let magnitude ←
    match s with
    | [] => .error .emptyNumber
    | ['0'] => pure 0
    | '0' :: 'b' :: ds => wholeNumber 2 ds
    | '0' :: 'x' :: ds => wholeNumber 16 ds
    | '0' :: _ => wholeNumber 8 s
    | _ =>
      if s.contains ':' then do
        let parts ← (colonParts s).mapM (wholeNumber 10)
        pure (parts.foldl (fun n d => 60 * n + d) 0)
      else wholeNumber 10 s
  return if negative then -magnitude else magnitude

/-- Add up digits of base sixty, the last first. A weight that no floating-point number comes near is a
fault, whatever the digit. -/
def sixtiethSum : Nat → Float → List Float → Except Fault Float
  | _, sum, [] => .ok sum
  | weight, sum, d :: ds =>
    if Nat.pow 2 1024 ≤ weight then .error .beyondRange
    else sixtiethSum (weight * 60) (sum + d * Float.ofNat weight) ds

/-- A floating-point number. What is not a number gets the mark of the place where it is written. -/
def ofFloat (mark : Nat) (x : Float) : Scalar := if x.isNaN then .nan mark else .float x

/-- A floating-point number: underscores and case do not matter, and colons separate digits of base
sixty. The word for what is not a number stands for one thing wherever it is written, whereas each
other text for it stands for a thing of its own. -/
def floatScalar (mark : Nat) (text : String) : Except Fault Scalar := do
  let s := (Text.lower (String.ofList (text.toList.filter (· ≠ '_')))).toList
  if s.isEmpty then .error .emptyNumber
  let (negative, s) := Number.splitSign s
  let sign : Float := if negative then -1.0 else 1.0
  if s = ".inf".toList then return .float (sign * (1.0 / 0.0))
  else if s = ".nan".toList then return .nan 0
  else if s.contains ':' then do
    let parts ← (colonParts s).mapM fractional
    return ofFloat mark (sign * (← sixtiethSum 1 0.0 parts.reverse))
  else return ofFloat mark (sign * (← fractional s))

/-- The value of a run of ASCII digits. -/
def digitsValue (ds : List Char) : Nat := ds.foldl (fun n c => 10 * n + (c.toNat - '0'.toNat)) 0

/-- A day or a point in time. -/
def timeScalar (text : String) : Except Fault Scalar :=
  match Tag.timeText? (Tag.withoutLineFeed text.toList) with
  | none => .error .noFields
  | some t =>
    let year := digitsValue t.year
    let month := digitsValue t.month
    let day := digitsValue t.day
    let made : Except CalendarFault Scalar :=
      match t.clock with
      | none => (Date.make year month day).map .date
      | some (hour, minute, second, fraction) =>
        let micro := digitsValue (fraction.take 6) * Nat.pow 10 (6 - (fraction.take 6).length)
        let offset : Option Int := t.zone.map fun
          | none => 0
          | some (west, hours, minutes) =>
            let n : Int := (digitsValue hours * 60 + digitsValue minutes : Nat)
            if west then -n else n
        (Timestamp.make year month day (digitsValue hour) (digitsValue minute) (digitsValue second)
          micro offset).map .time
    made.mapError .calendar

/-- A word for a truth value. -/
def boolScalar (text : String) : Except Fault Bool :=
  let word := Text.lower text
  if ["yes", "true", "on"].contains word then .ok true
  else if ["no", "false", "off"].contains word then .ok false
  else .error .unknownWord

/-- The scalar that a text is as its tag says, for the mark of the place where it is written. Merge keys
and the marks of default values mean nothing by themselves. -/
def scalarOf (tag : Tag) (mark : Nat) (text : String) : Except Fault Scalar :=
  match tag with
  | .null => .ok .null
  | .bool => (boolScalar text).map .bool
  | .int => (intScalar text).map .int
  | .float => floatScalar mark text
  | .time => timeScalar text
  | .text => .ok (.text text)
  | .merge | .value | .sequence | .mapping | .other _ => .error .malformed

end DocGraph.Yaml
