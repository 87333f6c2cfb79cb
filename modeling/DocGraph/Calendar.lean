/-!
# Calendar

Days of the Gregorian calendar from year 1 to year 9999, and points in time on such a day, with or
without a distance from universal time.
-/

namespace DocGraph

/-- A day. -/
structure Date where
  year : Nat
  month : Nat
  day : Nat
  deriving DecidableEq, Repr

/-- A point in time. The offset from universal time is in minutes, if it is known. -/
structure Timestamp where
  date : Date
  hour : Nat
  minute : Nat
  second : Nat
  microsecond : Nat
  offset : Option Int
  deriving DecidableEq, Repr

/-- The first part of a day or time that lies outside its bounds. -/
inductive CalendarFault
  | year (n : Nat)
  | month
  | day
  | hour
  | minute
  | second
  | offset (minutes : Int)
  deriving DecidableEq, Repr

namespace Date

/-- Whether a year has a 29th of February. -/
def isLeap (year : Nat) : Bool := year % 4 == 0 && (year % 100 != 0 || year % 400 == 0)

/-- The number of days of a month. -/
def daysIn (year month : Nat) : Nat :=
  if month = 2 then if isLeap year then 29 else 28
  else if month = 4 ∨ month = 6 ∨ month = 9 ∨ month = 11 then 30
  else 31

/-- The day with the given parts, which are checked from the largest to the smallest. -/
def make (year month day : Nat) : Except CalendarFault Date :=
  if year = 0 ∨ 9999 < year then .error (.year year)
  else if month = 0 ∨ 12 < month then .error .month
  else if day = 0 ∨ daysIn year month < day then .error .day
  else .ok ⟨year, month, day⟩

/-- Days before the year. -/
def daysBeforeYear (year : Nat) : Nat :=
  let y := year - 1
  y * 365 + y / 4 - y / 100 + y / 400

/-- The number of a day, counted from the first day of year 1. -/
def ordinal (d : Date) : Nat :=
  (List.range (d.month - 1)).foldl (fun n m => n + daysIn d.year (m + 1)) (daysBeforeYear d.year) + d.day

end Date

/-! ### Written forms -/

/-- A number with at least `width` digits. -/
def zeroFilled (width n : Nat) : String :=
  let ds := Nat.toDigits 10 n
  String.ofList (List.replicate (width - ds.length) '0' ++ ds)

/-- Year, month and day with hyphens. -/
def Date.text (d : Date) : String :=
  zeroFilled 4 d.year ++ "-" ++ zeroFilled 2 d.month ++ "-" ++ zeroFilled 2 d.day

namespace Timestamp

/-- The point in time with the given parts. -/
def make (year month day hour minute second microsecond : Nat) (offset : Option Int) :
    Except CalendarFault Timestamp := do
  match offset with
  | some m => if 24 * 60 ≤ m.natAbs then .error (.offset m) else pure ()
  | none => pure ()
  let date ← Date.make year month day
  if 23 < hour then .error .hour
  else if 59 < minute then .error .minute
  else if 59 < second then .error .second
  else pure ⟨date, hour, minute, second, microsecond, offset⟩

/-- Microseconds since the beginning of year 1, in universal time if the offset is known. -/
def instant (t : Timestamp) : Int :=
  let minutes : Int := ((t.date.ordinal * 24 + t.hour) * 60 + t.minute : Nat) - t.offset.getD 0
  (minutes * 60 + t.second) * 1000000 + t.microsecond

/-- An offset as hours and minutes with a sign. -/
def offsetText (minutes : Int) : String :=
  let n := minutes.natAbs
  (if minutes < 0 then "-" else "+") ++ zeroFilled 2 (n / 60) ++ ":" ++ zeroFilled 2 (n % 60)

/-- The day, the time of day, a fraction of a second if there is one, and the offset if known. -/
def text (t : Timestamp) : String :=
  t.date.text ++ " " ++ zeroFilled 2 t.hour ++ ":" ++ zeroFilled 2 t.minute ++ ":" ++
    zeroFilled 2 t.second ++
    (if t.microsecond = 0 then "" else "." ++ zeroFilled 6 t.microsecond) ++
    (t.offset.map offsetText).getD ""

end Timestamp

end DocGraph
