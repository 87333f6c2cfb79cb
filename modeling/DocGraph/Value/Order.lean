import DocGraph.Value.Basic

/-!
# Sets and order of scalars

A set of scalars holds each value once. Its members can be put in order only if they are all of one
kind; a single member is in order whatever it is.

What is not a number is of the kind of numbers, but stands neither before nor after any of them. Where
it occurs there is no rising order, and the place of each member hangs on how the order is sought. It
is sought by insertion: the run that begins the list stays, turned round if it falls, and each further
member is put into it at the place that halving finds.
-/

namespace DocGraph

namespace Scalar

/-- Add a scalar to a list that has each value once. -/
def addTo (xs : List Scalar) (s : Scalar) : List Scalar :=
  if xs.any (·.same s) then xs else xs ++ [s]

/-- Each value of a list once, in the order of first occurrence. -/
def distinct (xs : List Scalar) : List Scalar := xs.foldl addTo []

/-- Whether two scalars are of a kind that has an order. -/
def isComparable (a b : Scalar) : Bool :=
  (a.compare? b).isSome || (a.number?.isSome && b.number?.isSome)

/-- Whether one scalar may stand before another. -/
def atMost (a b : Scalar) : Bool := a.compare? b != some .gt

/-- Whether one scalar stands before another. -/
def isBefore (a b : Scalar) : Bool := a.compare? b == some .lt

/-- Whether a scalar is not a number, though of the kind of numbers. -/
def isNan (s : Scalar) : Bool := s.number? == some .nan

end Scalar

/-! ### Insertion -/

section Insertion

variable {α : Type} (isBefore : α → α → Bool)

/-- The members after the first one that go on falling, and what is left. -/
def fallingRun (last : α) : List α → List α × List α
  | [] => ([], [])
  | x :: xs =>
    if isBefore x last then
      let (run, rest) := fallingRun x xs
      (x :: run, rest)
    else ([], x :: xs)

/-- The members after the first one that do not fall, and what is left. -/
def risingRun (last : α) : List α → List α × List α
  | [] => ([], [])
  | x :: xs =>
    if isBefore x last then ([], x :: xs)
    else
      let (run, rest) := risingRun x xs
      (x :: run, rest)

/-- The run that begins a list, turned round if it falls, and what is left. -/
def firstRun : List α → List α × List α
  | [] => ([], [])
  | [x] => ([x], [])
  | x :: y :: xs =>
    if isBefore y x then
      let (run, rest) := fallingRun isBefore y xs
      ((x :: y :: run).reverse, rest)
    else
      let (run, rest) := risingRun isBefore x (y :: xs)
      (x :: run, rest)

/-- The place for a member between the places `low` and `high`, found by halving at most the given
number of times. -/
def placeFor (xs : List α) (x : α) : Nat → Nat → Nat → Nat
  | 0, low, _ => low
  | n + 1, low, high =>
    if low < high then
      let middle := low + (high - low) / 2
      if (xs[middle]?).any (isBefore x) then placeFor xs x n low middle
      else placeFor xs x n (middle + 1) high
    else low

/-- Put a member at its place. -/
def insertAtPlace (xs : List α) (x : α) : List α :=
  xs.insertIdx (placeFor isBefore xs x (xs.length + 1) 0 xs.length) x

/-- A list put in order by insertion. -/
def insertionSorted (xs : List α) : List α :=
  let (run, rest) := firstRun isBefore xs
  rest.foldl (insertAtPlace isBefore) run

end Insertion

namespace Scalar

/-- Some things put in the order of their scalars, which have to be all of one kind. -/
def arranged {α : Type} (scalar : α → Scalar) (xs : List α) : Except Fault (List α) :=
  match xs with
  | [] => .ok []
  | [x] => .ok [x]
  | x :: xs =>
    if xs.all fun y => (scalar x).isComparable (scalar y) then
      if (x :: xs).any fun y => (scalar y).isNan then
        .ok (insertionSorted (fun a b => (scalar a).isBefore (scalar b)) (x :: xs))
      else .ok ((x :: xs).mergeSort fun a b => (scalar a).atMost (scalar b))
    else .error .wrongType

/-- The scalars of a list in order. -/
def sorted (xs : List Scalar) : Except Fault (List Scalar) := arranged id xs

end Scalar

namespace Value

/-- The scalar of a value that may be a member of a set. -/
def scalar? : Value → Except Fault Scalar
  | .scalar s => .ok s
  | _ => .error .wrongType

/-- The set of the items of a value. -/
def itemSet (v : Value) : Except Fault (List Scalar) := do
  return Scalar.distinct (← (← v.items).mapM scalar?)

end Value

end DocGraph
