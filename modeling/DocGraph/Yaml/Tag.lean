/-!
# Tags of nodes

The tag of a node says what it is read as. A plain scalar without a tag gets one by its form.
-/

namespace DocGraph.Yaml

/-- What a node is read as. -/
inductive Tag
  | null
  | bool
  | int
  | float
  | time
  | text
  | merge
  | value
  | sequence
  | mapping
  | other (name : String)
  deriving DecidableEq, Repr

namespace Tag

/-- The beginning that the names of all known tags share. -/
def family : String := "tag:yaml.org,2002:"

/-- The known tags by the ends of their names. -/
def known : List (String × Tag) := [
  ("null", .null), ("bool", .bool), ("int", .int), ("float", .float), ("timestamp", .time),
  ("str", .text), ("merge", .merge), ("value", .value), ("seq", .sequence), ("map", .mapping)]

/-- The tag with the given full name. -/
def ofName (name : String) : Tag :=
  ((known.find? fun p => family ++ p.1 == name).map (·.2)).getD (.other name)

/-! ### Forms of plain scalars -/

/-- ASCII digits. -/
def isDigit (c : Char) : Bool := '0' ≤ c && c ≤ '9'

/-- ASCII digits and underscores. -/
def isSpacedDigit (c : Char) : Bool := isDigit c || c == '_'

/-- The characters after a sign, if there is one. -/
def afterSign : List Char → List Char
  | '+' :: s | '-' :: s => s
  | s => s

/-- Whether parts of one or two digits below sixty, each after a colon, stand here up to the end or to
a point, and what is left. At least one part is needed. -/
def sixtieths (count : Nat) : List Char → Option (List Char)
  | ':' :: a :: b :: s =>
    if '0' ≤ a && a ≤ '5' && isDigit b then sixtieths (count + 1) s
    else if isDigit a then sixtieths (count + 1) (b :: s)
    else none
  | [':', a] => if isDigit a then some [] else none
  | s => if 0 < count then some s else none

/-- Whether an exponent with a sign stands here, up to the end. -/
def isExponent : List Char → Bool
  | e :: sign :: s =>
    (e == 'e' || e == 'E') && (sign == '+' || sign == '-') && !s.isEmpty && s.all isDigit
  | _ => false

/-- Whether only a fraction and perhaps an exponent stand here. -/
def isFraction (s : List Char) : Bool :=
  let rest := s.dropWhile isSpacedDigit
  rest.isEmpty || isExponent rest

/-- Whole numbers: binary, octal, decimal, of base sixteen, or of base sixty. -/
def isInt (s : List Char) : Bool :=
  match afterSign s with
  | [] => false
  | '0' :: s =>
    match s with
    | [] => true
    | 'b' :: ds => !ds.isEmpty && ds.all fun c => c == '0' || c == '1' || c == '_'
    | 'x' :: ds =>
      !ds.isEmpty && ds.all fun c =>
        isSpacedDigit c || ('a' ≤ c && c ≤ 'f') || ('A' ≤ c && c ≤ 'F')
    | ds => ds.all fun c => ('0' ≤ c && c ≤ '7') || c == '_'
  | d :: s =>
    isDigit d &&
      (let rest := s.dropWhile isSpacedDigit
      rest.isEmpty || sixtieths 0 rest == some [])

/-- Fractions: a point among digits, in base ten or after parts of base sixty, and the words for what
is not finite. -/
def isFloat (s : List Char) : Bool :=
  [".nan".toList, ".NaN".toList, ".NAN".toList].contains s ||
    [".inf".toList, ".Inf".toList, ".INF".toList].contains (afterSign s) ||
    (match s with
      | '.' :: d :: s => isDigit d && isFraction s
      | _ => false) ||
    (match afterSign s with
      | d :: s =>
        isDigit d &&
          (match s.dropWhile isSpacedDigit with
            | '.' :: s => isFraction s
            | ':' :: rest =>
              match sixtieths 0 (':' :: rest) with
              | some ('.' :: s) => s.all isSpacedDigit
              | _ => false
            | _ => false)
      | [] => false)

/-- One or two digits, and what is left after them. -/
def oneOrTwoDigits : List Char → Option (List Char × List Char)
  | a :: b :: s =>
    if isDigit a then some (if isDigit b then ([a, b], s) else ([a], b :: s)) else none
  | [a] => if isDigit a then some ([a], []) else none
  | [] => none

/-- Two digits, and what is left after them. -/
def twoDigits : List Char → Option (List Char × List Char)
  | a :: b :: s => if isDigit a && isDigit b then some ([a, b], s) else none
  | _ => none

/-- The given character, and what is left after it. -/
def mark (c : Char) : List Char → Option (List Char)
  | x :: s => if x = c then some s else none
  | [] => none

/-- The parts of a day and of a point in time, as digits. -/
structure TimeText where
  year : List Char
  month : List Char
  day : List Char
  /-- Hour, minute, second and the digits of a fraction. -/
  clock : Option (List Char × List Char × List Char × List Char)
  /-- Whether universal time is given, or the sign, hours and minutes of an offset. -/
  zone : Option (Option (Bool × List Char × List Char))
  deriving Repr

/-- The offset that makes up the rest, perhaps after blanks. -/
def zoneText? (s : List Char) : Option (Option (Option (Bool × List Char × List Char))) :=
  if s.isEmpty then some none
  else
    match s.dropWhile fun c => c == ' ' || c == '\t' with
    | ['Z'] => some (some none)
    | sign :: s =>
      if sign = '+' ∨ sign = '-' then do
        let (hours, s) ← oneOrTwoDigits s
        if s.isEmpty then return some (some (sign = '-', hours, []))
        let (minutes, s) ← twoDigits (← mark ':' s)
        if s.isEmpty then return some (some (sign = '-', hours, minutes)) else none
      else none
    | [] => none

/-- A form without the line feed at its end. A form says nothing about a single one. -/
def withoutLineFeed (s : List Char) : List Char := if s.getLast? = some '\n' then s.dropLast else s

/-- The parts of a text that is a day, or a day and a time of day. -/
def timeText? (s : List Char) : Option TimeText := do
  let (century, s) ← twoDigits s
  let (years, s) ← twoDigits s
  let (month, s) ← oneOrTwoDigits (← mark '-' s)
  let (day, s) ← oneOrTwoDigits (← mark '-' s)
  let date : TimeText := ⟨century ++ years, month, day, none, none⟩
  match s with
  | [] => return date
  | c :: s =>
    let s ←
      if c = 'T' ∨ c = 't' then some s
      else if c = ' ' ∨ c = '\t' then some (s.dropWhile fun c => c == ' ' || c == '\t')
      else none
    let (hour, s) ← oneOrTwoDigits s
    let (minute, s) ← twoDigits (← mark ':' s)
    let (second, s) ← twoDigits (← mark ':' s)
    let (fraction, s) := match s with
      | '.' :: s => (s.takeWhile isDigit, s.dropWhile isDigit)
      | s => ([], s)
    return { date with clock := some (hour, minute, second, fraction), zone := ← zoneText? s }

/-- Days need two digits for month and day; points in time do not. -/
def isTime (s : List Char) : Bool :=
  match timeText? s with
  | some t => t.clock.isSome || (t.month.length == 2 && t.day.length == 2)
  | none => false

/-- Words for truth values. -/
def boolWords : List String := [
  "yes", "Yes", "YES", "no", "No", "NO", "true", "True", "TRUE", "false", "False", "FALSE", "on",
  "On", "ON", "off", "Off", "OFF"]

/-- Words for what has no value. -/
def nullWords : List String := ["~", "null", "Null", "NULL"]

/-- Marks that would begin something else and so mean nothing as scalars. -/
def strayMarks : List String := ["!", "&", "*"]

/-- The tag of a text by its form, in which a line feed at the end does not count. A text of nothing but
a line feed has no form. -/
def ofPlain (text : String) : Tag :=
  if text.isEmpty then .null
  else
  let s := withoutLineFeed text.toList
  let text := String.ofList s
  if boolWords.contains text then .bool
  else if isFloat s then .float
  else if isInt s then .int
  else if text = "<<" then .merge
  else if nullWords.contains text then .null
  else if isTime s then .time
  else if text = "=" then .value
  else if strayMarks.contains text then .other (family ++ "yaml")
  else .text

end Tag

end DocGraph.Yaml
