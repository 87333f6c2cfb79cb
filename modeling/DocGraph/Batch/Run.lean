import DocGraph.Failure
import DocGraph.Journal

/-!
# Runs

A run ends with a result or with a failure, and in both cases with a journal of what it reported up to
then.
-/

namespace DocGraph

/-- A computation that keeps a journal and may fail. -/
abbrev Run (α : Type) := ExceptT Failure (StateM Journal) α

namespace Run

variable {α : Type}

/-- Report something. -/
def note (events : Journal) : Run Unit := modify (· ++ events)

/-- Go on with a result, or end with its failure. -/
def ofExcept : Except Failure α → Run α
  | .ok a => pure a
  | .error e => throw e

/-- Go on with a result, or end with its fault. -/
def ofFault : Except Fault α → Run α
  | .ok a => pure a
  | .error e => throw (.fault e)

/-- How a run ends and what it has reported. -/
def finish (r : Run α) : Except Failure α × Journal := (ExceptT.run r).run []

/-- How a run ends and what it has reported, with a listener told of its stages. -/
def finishHeardBy (listener : Journal.Listener) (r : Run α) : Except Failure α × Journal :=
  (r.finish.1, r.finish.2.heardBy listener)

end Run

end DocGraph
