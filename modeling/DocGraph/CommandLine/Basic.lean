import DocGraph.Batch.Basic
import DocGraph.CommandLine.Arguments
import DocGraph.CommandLine.Log
import DocGraph.Files.System
import DocGraph.Graph.Export
import DocGraph.Report
import DocGraph.Settings.Hash
import DocGraph.Settings.Load
import DocGraph.Value.Json

/-!
# Command lines

A run from its command line to its end: the files that the inputs stand for are resolved under the
settings, then the report and the export are written, as far as they are asked for. Nothing is written
by a run that fails before.
-/

namespace DocGraph.CommandLine

/-- How a run ends. -/
inductive Ending
  | done
  | help
  | badArguments
  /-- The inputs stand for no files. -/
  | noFiles (inputs : List Path)
  | failed (e : Failure)

namespace Ending

/-- The exit code for an ending. -/
def exitCode : Ending → Nat
  | .done | .help => 0
  | .badArguments => 2
  | .noFiles _ | .failed _ => 1

/-- Whether a failure is one that is told in a line of the log. -/
def isTold : Failure → Bool
  | .fault _ => false
  | _ => true

/-- The last line of the log. -/
def logLine? : Ending → Option LogLine
  | .failed e => if isTold e then some ⟨.critical, "cli", e.message⟩ else none
  | _ => none

/-- What is said at the end beside the log. -/
def remark? : Ending → Option String
  | .noFiles inputs =>
    some ("No fragment files found under: " ++ ", ".intercalate (inputs.map Path.text))
  | .failed e => if isTold e then none else some e.message
  | _ => none

end Ending

/-- What comes of a run. -/
structure Outcome where
  ending : Ending
  log : List LogLine := []
  /-- What is printed. -/
  output : String := ""
  files : FileSystem

namespace Outcome

/-- The lines of the log that are shown. -/
def shownLog (o : Outcome) (verbose : Bool) : List LogLine :=
  (o.log ++ o.ending.logLine?.toList).filter fun l => verbose || l.level.isUrgent

end Outcome

/-! ### Writing -/

/-- The files of a run while it writes, and its log. -/
structure Writing where
  files : FileSystem
  log : List LogLine

/-- A line that tells of something written. -/
def writtenLine (message : String) : LogLine := ⟨.info, "cli", message⟩

/-- Write the report, if it is asked for. -/
def writeReport (a : Arguments) (s : Settings) (diagnostics : List Diagnostic) (clock : Clock)
    (w : Writing) : Except Fault Writing :=
  if a.report.isEmpty then .ok w
  else do
    let report := Report.add { configHash := ← s.hash } diagnostics
    return {
      files := ← w.files.write (.ofText a.report) (report.text clock)
      log := w.log ++ [writtenLine ("Diagnostics report written to " ++ a.report)] }

/-- Write the export, if it is asked for, and make the directory it goes to. -/
def writeExport (a : Arguments) (g : ClassGraph) (diagnostics : List Diagnostic) (w : Writing) :
    Except Fault Writing :=
  match a.out with
  | none => .ok w
  | some path => do
    let files ← w.files.makeDirectory path.parent
    let text := (← (g.plainData diagnostics a.withTree).value.plainJson).indented
    return {
      files := ← files.write path text
      log := w.log ++ [writtenLine
        ("Exported " ++ toString g.classes.length ++ " classes to " ++ path.text)] }

/-! ### Runs -/

/-- The line that sums up a run. -/
def summary (classes files warnings : Nat) : String :=
  "Resolved " ++ toString classes ++ " classes from " ++ toString files ++ " files (" ++
    toString warnings ++ " warnings)\n"

/-- Write what is asked for of a resolved graph. -/
def conclude (a : Arguments) (s : Settings) (files : Nat) (g : ClassGraph) (journal : Journal)
    (clock : Clock) (fs : FileSystem) : Outcome :=
  let diagnostics := Journal.diagnostics journal
  let w : Writing := ⟨fs, journal.map LogLine.ofEvent⟩
  match writeReport a s diagnostics clock w with
  | .error e => { ending := .failed (.fault e), log := w.log, files := w.files }
  | .ok w =>
    match writeExport a g diagnostics w with
    | .error e => { ending := .failed (.fault e), log := w.log, files := w.files }
    | .ok w => {
        ending := .done
        log := w.log
        output := summary g.classes.length files diagnostics.length
        files := w.files }

/-- Do what is asked for. -/
def perform (a : Arguments) (available : Nat) (clock : Clock) (fs : FileSystem) : Outcome :=
  match fs.collect a.inputs with
  | .error e => { ending := .failed (.fault e), files := fs }
  | .ok [] => { ending := .noFiles a.inputs, files := fs }
  | .ok (file :: rest) =>
    let files := file :: rest
    let batch := do
      let s ← Settings.load fs a.config
      return (s, ← (Batch.ofFiles files s a.workers available).mapError Failure.fault)
    match batch with
    | .error e => { ending := .failed e, files := fs }
    | .ok (s, b) =>
      match (b.resolved fs.fragments (Parser.Schedule.inOrder files.length)).finish with
      | (.error e, journal) =>
        { ending := .failed e, log := journal.map LogLine.ofEvent, files := fs }
      | (.ok g, journal) => conclude a s files.length g journal clock fs

/-- Do what a command line asks for. -/
def run (reading : Reading Arguments) (available : Nat) (clock : Clock) (fs : FileSystem) : Outcome :=
  match reading with
  | .help => { ending := .help, files := fs }
  | .invalid => { ending := .badArguments, files := fs }
  | .arguments a => perform a available clock fs

end DocGraph.CommandLine
