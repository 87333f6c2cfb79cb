import DocGraph.Fault

/-!
# Failures

What can end a run. A file that cannot be parsed, two classes of one name and an unusable
configuration are reported in words of their own; any other fault ends the run as it is.
-/

namespace DocGraph

/-- Why a run ends without a result. -/
inductive Failure
  | fault (f : Fault)
  /-- A file could not be read or parsed. -/
  | unparsed (file : String) (cause : Fault)
  /-- Two classes share a full name. -/
  | duplicateClass (name : String)
  | configNotMapping (path : String)
  /-- There is no merge policy of the name, which is given as it is shown. -/
  | unknownPolicy (shown : String)
  deriving DecidableEq, Repr

namespace Failure

/-- The fault behind a failure, if there is one. -/
def cause? : Failure → Option Fault
  | .fault f | .unparsed _ f => some f
  | _ => none

/-- The wording of a failure. -/
def message : Failure → String
  | .fault f => f.message
  | .unparsed file cause => "Error while parsing " ++ file ++ ": " ++ cause.message
  | .duplicateClass name => "Duplicate class name: " ++ name
  | .configNotMapping path => "Config file must contain a mapping: " ++ path
  | .unknownPolicy shown => "Unknown aggregation.class_attributes policy: " ++ shown

/-- The wording of a failure, unless it hangs on a fault that has none of its own. -/
def message? (e : Failure) : Option String :=
  if e.cause?.any (·.message?.isNone) then none else some e.message

end Failure

end DocGraph
