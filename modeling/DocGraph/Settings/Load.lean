import DocGraph.Failure
import DocGraph.Files.System
import DocGraph.Settings.Merge
import DocGraph.Value.Text

/-!
# Configuration files

The settings of a configuration file are laid over the default ones. What comes out must name a merge
policy that there is.
-/

namespace DocGraph.Settings

/-- The settings of a run for which nothing else is said. -/
def defaultPairs : List (Scalar × Value) := [
  (.text "workers", .null),
  (.text "external_classes",
    .list (["Object", "String", "Number", "Boolean", "Function"].map Value.text)),
  (.text "ignore_global", .bool false),
  (.text "framework_quirks", Value.record [("ext4_events", .null)]),
  (.text "aggregation", Value.record [("class_attributes", .text MergePolicy.first.name)]),
  (.text "default_version", .null),
  (.text "new_since", .null),
  (.text "lint", Value.record [("no_doc", .bool false), ("param_docs", .bool true)])]

/-- The default settings. -/
def default : Settings := ⟨.map defaultPairs⟩

/-- Whether a value names a merge policy. -/
def isPolicy (v : Value) : Bool :=
  [MergePolicy.first, .last].any fun policy => v.isText policy.name

/-- Settings whose merge policy there is. -/
def checked (ps : List (Scalar × Value)) : Except Failure Settings :=
  match (Value.fieldOf ps "aggregation").field "class_attributes" with
  | .error e => .error (.fault e)
  | .ok policy =>
    if isPolicy policy then .ok ⟨.map ps⟩
    else match policy.inspect with
      | .ok shown => .error (.unknownPolicy shown)
      | .error e => .error (.fault e)

/-- The settings that a document lays over the default ones, for the path of its file. A document that
says nothing leaves them as they are. -/
def ofDocument (path : String) (doc : Value) : Except Failure Settings :=
  match doc.orEmpty.opened with
  | .map qs =>
    match mergePairs defaultPairs qs with
    | .ok ps => checked ps
    | .error e => .error (.fault e)
  | _ => .error (.configNotMapping path)

/-- The document of a configuration file, if there is one. -/
def readDocument (fs : FileSystem) (path : String) : Except Fault (Option Value) :=
  if path.isEmpty then .ok none
  else do
    if (← fs.look (.ofText path)).isNone then return none
    return some (← (← fs.read (.ofText path)).document)

/-- The settings of a run with the given configuration file. Without a file the default ones hold. -/
def load (fs : FileSystem) (path : String) : Except Failure Settings :=
  match readDocument fs path with
  | .error e => .error (.fault e)
  | .ok none => .ok default
  | .ok (some doc) => ofDocument path doc

end DocGraph.Settings
