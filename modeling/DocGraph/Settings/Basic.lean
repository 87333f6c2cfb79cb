import DocGraph.Graph.Lint
import DocGraph.Graph.Versions
import DocGraph.Value.Order

/-!
# Settings

The settings of a run are a mapping that may hold anything. Each setting is looked at only where it is
needed, and it is there that one of an unusable form is a fault.
-/

namespace DocGraph

/-- Settings as they are written. -/
structure Settings where
  value : Value
  deriving Repr, BEq

/-- How files are read: one after the other, or by several workers side by side, whose number is given
without its fraction. -/
inductive Workers
  | one
  | several (count : Nat)
  deriving DecidableEq, Repr

namespace Settings

/-- The settings that say nothing. -/
def empty : Settings := ⟨.map []⟩

/-- A setting by its name; null if it is missing. -/
def field (s : Settings) (name : String) : Except Fault Value := s.value.field name

/-- A group of settings; a missing one is empty. -/
def group (s : Settings) (name : String) : Except Fault (List (Scalar × Value)) := do
  (← s.field name).orEmpty.pairs?

/-! ### Classes -/

/-- The names of classes that are legal to refer to without being documented. -/
def externalNames (s : Settings) : Except Fault (List Scalar) := do
  (← s.field "external_classes").orEmpty.itemSet

/-- Which of several declarations of a class decides. The first one does unless the last one is asked
for. -/
def mergePolicy (s : Settings) : Except Fault MergePolicy := do
  let policy := Value.fieldOf (← s.group "aggregation") "class_attributes"
  return if policy.isText MergePolicy.last.name then .last else .first

/-- Whether members without a class are unwanted. -/
def ignoresGlobals (s : Settings) : Except Fault Bool := return (← s.field "ignore_global").isTruthy

/-- The settings of framework rules. -/
def frameworkRules (s : Settings) : Except Fault Value := s.field "framework_quirks"

/-! ### Finished documentation -/

/-- The version settings. -/
def versions (s : Settings) : Except Fault ClassGraph.VersionOptions :=
  return { default := ← s.field "default_version", newSince := ← s.field "new_since" }

/-- Which flaws to look for. Parameters without documentation are, unless it is said that they are
not. -/
def lint (s : Settings) : Except Fault LintOptions := do
  let options ← s.group "lint"
  return {
    noDoc := (Value.fieldOf options "no_doc").isTruthy
    paramDocs := ((Value.find? options (.text "param_docs")).getD (.bool true)).isTruthy }

/-! ### Workers -/

/-- The whole part of a number that is not negative. -/
def wholePart (s : Scalar) : Nat := ((Value.scalar s).toInt.toOption.getD 0).toNat

/-- The workers that a number stands for. Only a number above one stands for several. -/
def workersOf (s : Scalar) : Except Fault Workers :=
  if s.number?.isNone then .error .wrongType
  else if (Scalar.int 1).compare? s = some .lt then .ok (.several (wholePart s))
  else .ok .one

/-- The workers of a run: as many as were asked for, else as many as the setting says, else as many as
are available. Zero counts as not said. -/
def workers (s : Settings) (asked : Option Int) (available : Nat) : Except Fault Workers :=
  match asked.filter (· ≠ 0) with
  | some n => workersOf (.int n)
  | none => do
    let setting ← s.field "workers"
    if setting.isTruthy then workersOf (← setting.scalar?) else workersOf (.int available)

end Settings

end DocGraph
