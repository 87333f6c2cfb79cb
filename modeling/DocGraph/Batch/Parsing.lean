import DocGraph.Batch.Run
import DocGraph.Catalog.Aggregation
import DocGraph.Settings.Basic

/-!
# Parsing files

The files of a batch are parsed one after the other, or side by side by several workers. Side by side
they finish in any order and in groups of any size, which a schedule tells; every result goes to the
slot of its file, so the results are in the order of the files. The first failure that is met ends
the parsing.
-/

namespace DocGraph

/-- How the fragments of a file are found. -/
abbrev Parser := String → Except Fault (List Fragment)

namespace Parser

/-- Parse a file; what goes wrong is a failure of that file. -/
def parseFile (parse : Parser) (file : String) : Except Failure ParsedFile :=
  match parse file with
  | .ok fragments => .ok ⟨file, fragments⟩
  | .error e => .error (.unparsed file e)

/-- The report that a file is parsed next. -/
def announcement (file : String) : Event := .stage "Parsing" file

/-- Parse files one after the other. -/
def inTurn (parse : Parser) : List String → Run (List ParsedFile)
  | [] => pure []
  | file :: files => do
    Run.note [announcement file]
    let parsed ← Run.ofExcept (parse.parseFile file)
    return parsed :: (← inTurn parse files)

/-! ### Side by side -/

/-- The groups in which files are finished, each file given by its place. -/
abbrev Schedule := List (List Nat)

/-- Every file finishes once, and no group is empty. -/
def Schedule.IsComplete (s : Schedule) (n : Nat) : Prop :=
  s.flatten.Perm (List.range n) ∧ [] ∉ s

/-- The schedule in which files finish one by one in their order. -/
def Schedule.inOrder (n : Nat) : Schedule := (List.range n).map fun i => [i]

/-- The slots for results, empty as long as the file has not finished. -/
abbrev Slots := List (Option ParsedFile)

/-- Put the result of a finished file into its slot. -/
def finishFile (parse : Parser) (files : List String) (slots : Slots) (i : Nat) :
    Except Failure Slots :=
  match files[i]? with
  | none => .ok slots
  | some file => return slots.set i (some (← parse.parseFile file))

/-- Put the results of all files into their slots, group by group. -/
def gather (parse : Parser) (files : List String) (schedule : Schedule) :
    Except Failure (List ParsedFile) := do
  let slots ← schedule.foldlM (fun slots group => group.foldlM (finishFile parse files) slots)
    (List.replicate files.length none)
  return slots.filterMap id

/-- Parse files side by side. -/
def sideBySide (parse : Parser) (files : List String) (workers : Nat) (schedule : Schedule) :
    Run (List ParsedFile) := do
  Run.note (.pooled files.length workers :: files.map announcement)
  Run.ofExcept (parse.gather files schedule)

/-- Parse files with the given workers, who finish them as the schedule says if they are several.
Without files no worker is needed. -/
def parseAll (parse : Parser) (files : List String) (workers : Except Fault Workers)
    (schedule : Schedule) : Run (List ParsedFile) :=
  if files.isEmpty then pure []
  else do
    match ← Run.ofFault workers with
    | .one => parse.inTurn files
    | .several n => parse.sideBySide files n schedule

end Parser

end DocGraph
