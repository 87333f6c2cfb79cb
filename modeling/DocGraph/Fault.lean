import DocGraph.Calendar
import DocGraph.Number.Limit
import DocGraph.Text.Quoted

/-!
# Faults

The reasons for which a file, a document or a value cannot be used. A fault is a cause; its wording,
where it has one of its own, is `Fault.message?`.
-/

namespace DocGraph

/-- Why a file, a document or a value cannot be used. -/
inductive Fault
  /-- The text is no well-formed document. -/
  | malformed
  /-- The bytes of a file are no UTF-8 text. -/
  | undecodable
  | noSuchFile (path : String)
  | isDirectory (path : String)
  | notDirectory (path : String)
  | fileExists (path : String)
  | nameTooLong (path : String)
  /-- A path has a null character in it. -/
  | nullInPath
  | documentNotMapping
  | fragmentsNotList
  | entryNotMapping (found : String)
  | entryUnnamed (index : Int)
  | unknownTag (index : Int) (tag : String)
  /-- The text is no whole number in the base. -/
  | notInteger (base : Nat) (text : String)
  /-- The text is no floating-point number. -/
  | notDecimal (text : String)
  /-- A whole number has too many decimal digits to be read, which are counted, or to be written. -/
  | tooManyDigits (count : Option Nat)
  | integerOfNan
  | integerOfInfinity
  | calendar (fault : CalendarFault)
  /-- An escape names a number beyond the last code point. -/
  | beyondUnicode
  /-- An escape names a number beyond the machine's range. -/
  | beyondRange
  /-- The value has a type that the operation has no meaning for. -/
  | wrongType
  /-- A field was asked of something that has none. -/
  | noFields
  /-- A word is not in the vocabulary of its tag. -/
  | unknownWord
  /-- A number was asked of an empty text. -/
  | emptyNumber
  /-- A list was asked for a place that it does not have. -/
  | outOfBounds
  /-- A value that contains itself cannot be written out. -/
  | circular
  /-- A value that contains itself, or is too deep, was followed without end. -/
  | endless
  deriving DecidableEq, Repr

/-- A distance from universal time as whole days and the seconds after them. -/
def offsetParts (minutes : Int) : String :=
  let days := minutes.fdiv (24 * 60)
  let seconds := minutes.fmod (24 * 60) * 60
  let dayText := "days=" ++ toString days
  let secondText := "seconds=" ++ toString seconds
  if days = 0 then if seconds = 0 then "0" else secondText
  else if seconds = 0 then dayText else dayText ++ ", " ++ secondText

/-- The wording of a calendar fault. -/
def CalendarFault.message : CalendarFault → String
  | .year n => "year " ++ toString n ++ " is out of range"
  | .month => "month must be in 1..12"
  | .day => "day is out of range for month"
  | .hour => "hour must be in 0..23"
  | .minute => "minute must be in 0..59"
  | .second => "second must be in 0..59"
  | .offset minutes =>
    "offset must be a timedelta strictly between -timedelta(hours=24) and timedelta(hours=24), not " ++
      "datetime.timedelta(" ++ offsetParts minutes ++ ")."

/-- The most that is shown of a text that is no whole number. -/
def shownLimit : Nat := 200

/-- A text in quotes, cut off at the given length. -/
def quotedUpTo (limit : Nat) (text : String) : String :=
  String.ofList ((Text.quoted text).toList.take limit)

/-- The wording of a fault, for those that have one of their own. -/
def Fault.message? : Fault → Option String
  | .noSuchFile path => some ("[Errno 2] No such file or directory: " ++ Text.quoted path)
  | .isDirectory path => some ("[Errno 21] Is a directory: " ++ Text.quoted path)
  | .notDirectory path => some ("[Errno 20] Not a directory: " ++ Text.quoted path)
  | .fileExists path => some ("[Errno 17] File exists: " ++ Text.quoted path)
  | .nameTooLong path => some ("[Errno 36] File name too long: " ++ Text.quoted path)
  | .nullInPath => some "embedded null byte"
  | .documentNotMapping => some "fragment document must be a mapping"
  | .fragmentsNotList => some "'fragments' must be a list"
  | .entryNotMapping found => some ("fragment entry must be a mapping, got " ++ found)
  | .entryUnnamed index =>
    some ("fragment #" ++ toString index ++ " needs both 'tagname' and 'name'")
  | .unknownTag index tag =>
    some ("fragment #" ++ toString index ++ " has unknown tagname " ++ Text.quoted tag)
  | .notInteger base text =>
    some ("invalid literal for int() with base " ++ toString base ++ ": " ++
      quotedUpTo shownLimit text)
  | .notDecimal text => some ("could not convert string to float: " ++ Text.quoted text)
  | .tooManyDigits count =>
    some ("Exceeds the limit (" ++ toString Number.digitLimit ++
      " digits) for integer string conversion" ++
      (count.elim "" fun n => ": value has " ++ toString n ++ " digits") ++
      "; use sys.set_int_max_str_digits() to increase the limit")
  | .circular => some "Circular reference detected"
  | .integerOfNan => some "cannot convert float NaN to integer"
  | .calendar fault => some fault.message
  | .beyondUnicode => some "chr() arg not in range(0x110000)"
  | .malformed | .undecodable | .integerOfInfinity | .beyondRange | .wrongType | .noFields
  | .unknownWord | .emptyNumber | .outOfBounds | .endless => none

/-- What is said of a fault without a wording of its own. -/
def Fault.summary : Fault → String
  | .malformed => "the text is no well-formed document"
  | .undecodable => "the bytes are no text"
  | .integerOfInfinity => "infinity is no whole number"
  | .beyondRange => "a number is out of range"
  | .noFields => "a mapping is needed"
  | .unknownWord => "a word is not known"
  | .emptyNumber => "a number is empty"
  | .outOfBounds => "a list is too short"
  | .endless => "a value is too deep"
  | _ => "a value has a type that is of no use here"

/-- The wording of a fault, or what is said of it. -/
def Fault.message (f : Fault) : String := f.message?.getD f.summary

end DocGraph
