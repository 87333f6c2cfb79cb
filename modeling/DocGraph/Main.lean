import DocGraph.CommandLine.Basic
import Std.Time.DateTime.Timestamp

/-!
# The program

Looks at the files that a command line names, lets the run take place, and carries out what came of
it: what is printed, what is logged, and what is written. Texts come in as strings of characters and go out
as such.
-/

namespace DocGraph.CommandLine

/-! ### Looking at files -/

/-- What there is at an entry of a directory. Below it only documents are looked at. -/
partial def treeAt (entry : IO.FS.DirEntry) : IO (Option FileTree) := do
  let path := entry.path
  if ← path.isDir then
    let mut entries := []
    for e in ← path.readDir do
      if FileSystem.isDocumentName e.fileName || (← e.path.isDir) then
        entries := entries ++ (← treeAt e).toList.map fun t => (Text.ofString e.fileName, t)
    return some (.directory entries)
  else if ← path.pathExists then
    return some (.file (.bytes (← IO.FS.readBinFile path)))
  else return none

/-- The file at an entry of a directory. -/
def fileAt (entry : IO.FS.DirEntry) : IO (Option FileTree) := do
  if ← entry.path.isDir then return none else treeAt entry

/-- What there is at an entry of a directory, without its contents. -/
def placeAt (entry : IO.FS.DirEntry) : IO (Option FileTree) := do
  if ← entry.path.isDir then return some (.directory [])
  else if ← entry.path.pathExists then return some (.file (.bytes ⟨#[]⟩))
  else return none

/-- Add what there is at a path, as `look` sees it. -/
def add (look : IO.FS.DirEntry → IO (Option FileTree)) (fs : FileSystem) (p : Path) :
    IO FileSystem := do
  match ← look ⟨← IO.currentDir, Text.printed p.text⟩ with
  | some t => return fs.put p t
  | none => return fs

/-- Add the place that a path leads to, unless it is there already. -/
def addPlace (fs : FileSystem) (p : Path) : IO FileSystem :=
  if (fs.find? p).isSome then return fs else add placeAt fs p

/-- The files that a run looks at. Single files come after directories, which hold only some of their
files. -/
def snapshot (a : Arguments) : IO FileSystem := do
  let here := Path.ofText (Text.ofString (← IO.currentDir).toString)
  let fs : FileSystem := { root := .directory [], working := here.parts }
  let config := if a.config.isEmpty then [] else [Path.ofText a.config]
  let fs ← a.inputs.foldlM (add treeAt) (fs.put (.ofText "") (.directory []))
  let fs ← (a.inputs ++ config).foldlM (add fileAt) fs
  ((config ++ Path.ofText a.report :: a.out.toList).flatMap FileSystem.stations).foldlM addPlace fs

/-! ### Carrying out -/

/-- The text that a run has written to a path. -/
def writtenText? (fs : FileSystem) (p : Path) : Option String :=
  match fs.find? p with
  | some (.file (.text s)) => some s
  | _ => none

/-- Write what a run has written, and make the directory that the export goes to. -/
def carryOut (a : Arguments) (o : Outcome) : IO Unit := do
  if let some s := writtenText? o.files (.ofText a.report) then
    IO.FS.writeFile (Text.printed (Path.ofText a.report).text) (Text.printed s)
  if let some out := a.out then
    if let some s := writtenText? o.files out then
      IO.FS.createDirAll (Text.printed out.parent.text)
      IO.FS.writeFile (Text.printed out.text) (Text.printed s)

/-- The number of workers if nothing is said. Their number does not show in what is written. -/
def defaultWorkers : Nat := 4

/-- What is said about the use of the program. -/
def usage : String :=
  "usage: docgraph [-h] [--config CONFIG] [--workers WORKERS] [--out OUT] [--report REPORT]\n" ++
    "                [--package-tree] [--verbose] inputs [inputs ...]\n"

/-- Seconds since the beginning of 1970. -/
def now : IO Float :=
  return (← Std.Time.Timestamp.now).toNanosecondsSinceUnixEpoch.val.toNat.toFloat / 1e9

/-- Say what came of a run. -/
def tell (verbose : Bool) (o : Outcome) : IO Unit := do
  for l in o.shownLog verbose do IO.eprintln (Text.printed l.text)
  if let some s := o.ending.remark? then IO.eprintln (Text.printed s)
  match o.ending with
  | .help => IO.print usage
  | .badArguments => IO.eprint usage
  | _ => IO.print (Text.printed o.output)

end DocGraph.CommandLine

open DocGraph.CommandLine in
/-- Run the program and give its exit code. -/
def main (line : List String) : IO UInt32 := do
  let reading := Arguments.read (line.map DocGraph.Text.ofString)
  let a := match reading with
    | .arguments a => a
    | _ => {}
  let fs ← snapshot a
  let outcome := run reading defaultWorkers { timestamp := ← now } fs
  carryOut a outcome
  tell a.verbose outcome
  return outcome.ending.exitCode.toUInt32
