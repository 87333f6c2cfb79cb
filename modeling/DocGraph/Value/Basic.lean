import DocGraph.Fault
import DocGraph.Number.Binary
import DocGraph.Number.Reader

/-!
# Values

What a document or a configuration may hold: scalars, lists, and mappings that keep the order of
their keys. Keys of mappings are scalars. Scalars are told apart by value, so the numbers `1`, `1.0`
and the truth value `true` are one key.

A list or mapping may contain itself. Such a collection is a *loop*: it has a label, and where it comes
again inside itself only the label stands. `Value.opened` puts the whole loop in the place of its label,
so what it gives looks like any other list or mapping.

Questions that a value of another shape has no answer to are answered by a fault.
-/

namespace DocGraph

/-- A value without parts. -/
inductive Scalar
  | null
  | bool (b : Bool)
  | int (n : Int)
  | float (x : Float)
  /-- What is not a number. It equals nothing, and is yet one key with itself; the mark tells apart what
  was written at different places. -/
  | nan (mark : Nat)
  | text (s : String)
  | date (d : Date)
  | time (t : Timestamp)
  deriving Repr, BEq, Inhabited

/-- A document value. -/
inductive Value
  | scalar (s : Scalar)
  | list (xs : List Value)
  | map (ps : List (Scalar × Value))
  /-- A list or mapping that contains itself wherever its label stands inside it. -/
  | loop (label : Nat) (body : Value)
  /-- The loop around this place that has the label. -/
  | again (label : Nat)
  deriving Repr, BEq, Inhabited

/-! ### Scalars -/

namespace Scalar

/-- A scalar seen as a number. -/
def number? : Scalar → Option Number.Real
  | .bool b => some (.ofInt (if b then 1 else 0))
  | .int n => some (.ofInt n)
  | .float x => some (.ofFloat x)
  | .nan _ => some .nan
  | _ => none

/-- A scalar seen as a text. -/
def text? : Scalar → Option String
  | .text s => some s
  | _ => none

/-- The order of two scalars of one kind: numbers by size, texts by code points, days and times by
the calendar. Times with and without a known offset are of different kinds. -/
def compare? (a b : Scalar) : Option Ordering :=
  match a, b with
  | .text s, .text t => some (compareOfLessAndEq s t)
  | .date d, .date e => some (Ord.compare d.ordinal e.ordinal)
  | .time t, .time u =>
    if t.offset.isSome = u.offset.isSome then some (Ord.compare t.instant u.instant) else none
  | a, b => do (← a.number?).compare? (← b.number?)

/-- Whether two scalars are equal. What is not a number equals nothing. -/
def equals (a b : Scalar) : Bool :=
  match a, b with
  | .null, .null => true
  | a, b => a.compare? b == some .eq

/-- Whether two scalars are one and the same: equal, or one thing that is not a number. -/
def same (a b : Scalar) : Bool :=
  match a, b with
  | .nan m, .nan n => m == n
  | a, b => a.equals b

/-- Whether a scalar counts as true: everything but null, false, zero and the empty text. -/
def isTruthy : Scalar → Bool
  | .null => false
  | .bool b => b
  | .int n => n != 0
  | .float x => !(x == 0)
  | .text s => !s.isEmpty
  | .nan _ | .date _ | .time _ => true

end Scalar

/-! ### Values -/

namespace Value

/-- The value that stands for nothing. -/
abbrev null : Value := .scalar .null

/-- A truth value. -/
abbrev bool (b : Bool) : Value := .scalar (.bool b)

/-- A whole number. -/
abbrev int (n : Int) : Value := .scalar (.int n)

/-- A text. -/
abbrev text (s : String) : Value := .scalar (.text s)

/-- A text that may be missing. -/
def optionalText (s : Option String) : Value := (s.map Value.text).getD .null

/-- A mapping whose keys are texts. -/
def record (ps : List (String × Value)) : Value := .map (ps.map fun p => (.text p.1, p.2))

/-! #### Loops -/

mutual

/-- A value with another one put wherever a label stands. A loop with that label is left alone, for the
label inside it is its own. -/
def fill (label : Nat) (w : Value) : Value → Value
  | .scalar s => .scalar s
  | .list xs => .list (fillList label w xs)
  | .map ps => .map (fillPairs label w ps)
  | .loop m body => if m = label then .loop m body else .loop m (fill label w body)
  | .again m => if m = label then w else .again m

/-- The items of a list with a value put wherever a label stands. -/
def fillList (label : Nat) (w : Value) : List Value → List Value
  | [] => []
  | v :: vs => fill label w v :: fillList label w vs

/-- The pairs of a mapping with a value put wherever a label stands. -/
def fillPairs (label : Nat) (w : Value) : List (Scalar × Value) → List (Scalar × Value)
  | [] => []
  | (key, v) :: ps => (key, fill label w v) :: fillPairs label w ps

end

/-- A value with its outermost loop opened once. -/
def opened : Value → Value
  | .loop label body => fill label (.loop label body) body
  | v => v

@[simp] theorem opened_scalar (s : Scalar) : (Value.scalar s).opened = .scalar s := rfl

@[simp] theorem opened_list (xs : List Value) : (Value.list xs).opened = .list xs := rfl

@[simp] theorem opened_map (ps : List (Scalar × Value)) : (Value.map ps).opened = .map ps := rfl

/-! #### Parts -/

/-- Whether a value counts as true. Lists and mappings do unless they are empty. -/
def isTruthy : Value → Bool
  | .scalar s => s.isTruthy
  | .list xs => !xs.isEmpty
  | .map ps => !ps.isEmpty
  | .loop _ body => body.isTruthy
  | .again _ => true

/-- Whether a value is a mapping. -/
def isMap : Value → Bool
  | .map _ => true
  | .loop _ body => body.isMap
  | _ => false

/-- The pairs of a mapping. -/
def pairs? (v : Value) : Except Fault (List (Scalar × Value)) :=
  match v.opened with
  | .map ps => .ok ps
  | _ => .error .noFields

/-- The value at a key of a mapping. -/
def find? (ps : List (Scalar × Value)) (key : Scalar) : Option Value :=
  (ps.find? fun p => p.1.same key).map (·.2)

/-- The value of a field given by its name; null if the mapping lacks it. -/
def fieldOf (ps : List (Scalar × Value)) (name : String) : Value :=
  (find? ps (.text name)).getD .null

/-- The field of a value that has to be a mapping. -/
def field (v : Value) (name : String) : Except Fault Value := return fieldOf (← v.pairs?) name

/-- The value itself if it counts as true, else an empty mapping. -/
def orEmpty (v : Value) : Value := if v.isTruthy then v else .map []

/-- What one meets in going through a value: the items of a list, the keys of a mapping, the
characters of a text. -/
def items (v : Value) : Except Fault (List Value) :=
  match v.opened with
  | .list xs => .ok xs
  | .map ps => .ok (ps.map fun p => .scalar p.1)
  | .scalar (.text s) => .ok ((Text.points s).map fun p => .text (Text.keep [p]))
  | _ => .error .wrongType

/-- Put something at a key, in place if the key is there and at the end if not. -/
def insert {α : Type} (ps : List (Scalar × α)) (key : Scalar) (v : α) : List (Scalar × α) :=
  match ps with
  | [] => [(key, v)]
  | p :: ps => if p.1.same key then (p.1, v) :: ps else p :: insert ps key v

/-- The word for the type of a value. -/
def typeWord : Value → String
  | .scalar .null => "NoneType"
  | .scalar (.bool _) => "bool"
  | .scalar (.int _) => "int"
  | .scalar (.float _) | .scalar (.nan _) => "float"
  | .scalar (.text _) => "str"
  | .scalar (.date _) => "date"
  | .scalar (.time _) => "datetime"
  | .list _ => "list"
  | .map _ => "dict"
  | .loop _ body => body.typeWord
  | .again _ => "object"

/-- A whole number made of a value: fractions are cut off, texts are read. -/
def toInt : Value → Except Fault Int
  | .scalar (.int n) => .ok n
  | .scalar (.bool b) => .ok (if b then 1 else 0)
  | .scalar (.float x) =>
    match Number.Parts.ofFloat x with
    | .finite b => .ok b.truncate
    | .infinite _ => .error .integerOfInfinity
    | .nan => .error .integerOfNan
  | .scalar (.nan _) => .error .integerOfNan
  | .scalar (.text s) =>
    match Number.integer 10 s with
    | .ok n => .ok n
    | .error .form => .error (.notInteger 10 s)
    | .error (.digits count) => .error (.tooManyDigits count)
  | _ => .error .wrongType

end Value

end DocGraph
