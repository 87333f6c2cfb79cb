import DocGraph.Files.Path
import DocGraph.Files.Tree
import DocGraph.Record

/-!
# File systems

A file system is the tree of all files together with the working directory, from which paths lead that
do not begin at the root.
-/

namespace DocGraph

/-- The tree of all files, and the parts of the path to the working directory. -/
structure FileSystem where
  root : FileTree
  working : List String := []

namespace FileSystem

/-- The parts of a path from the root on. -/
def parts (fs : FileSystem) (p : Path) : List String :=
  if p.isAbsolute then p.parts else fs.working ++ p.parts

/-- What a path leads to, or the first obstacle on the way. -/
def locate (fs : FileSystem) (p : Path) : Except Obstacle FileTree :=
  if p.text.toList.contains '\x00' then .error .null
  else if Path.limit < Text.byteSize p.text then .error .length
  else fs.root.follow [] (fs.parts p)

/-- What a path leads to, if there is something. -/
def find? (fs : FileSystem) (p : Path) : Option FileTree := (fs.locate p).toOption

/-- The fault that an obstacle on a path is. -/
def obstruction (p : Path) : Obstacle → Fault
  | .missing => .noSuchFile p.text
  | .file => .notDirectory p.text
  | .length => .nameTooLong p.text
  | .null => .nullInPath

/-- Look whether something is there. A path that leads nowhere leads to nothing, but one that is too
long cannot even be looked at. -/
def look (fs : FileSystem) (p : Path) : Except Fault (Option FileTree) :=
  match fs.locate p with
  | .ok t => .ok (some t)
  | .error .length => .error (.nameTooLong p.text)
  | .error _ => .ok none

/-- The contents of the file that a path leads to. -/
def read (fs : FileSystem) (p : Path) : Except Fault Source :=
  match fs.locate p with
  | .error o => .error (obstruction p o)
  | .ok (.directory _) => .error (.isDirectory p.text)
  | .ok (.file s) => .ok s

/-- The fragments of the file with the given name. -/
def fragments (fs : FileSystem) (file : String) : Except Fault (List Fragment) := do
  (← fs.read (.ofText file)).fragments file

/-! ### Changes -/

/-- Parts without steps up, each of which takes back the part before it. -/
def withoutStepsUp (ps : List String) : List String :=
  (ps.foldl (fun above p => if p = ".." then above.tail else p :: above) []).reverse

/-- Put something where a path leads to, making directories on the way. -/
def put (fs : FileSystem) (p : Path) (t : FileTree) : FileSystem :=
  { fs with root := fs.root.put (withoutStepsUp (fs.parts p)) t }

/-- The places that a path leads through, from the outermost on, and the path itself. -/
def stations (p : Path) : List Path :=
  (List.range p.parts.length).map fun n => { p with parts := p.parts.take (n + 1) }

/-- Make a directory, and first those around it that are missing, at most as many as given. -/
def makeAt : Nat → FileSystem → Path → Except Fault FileSystem
  | 0, fs, _ => .ok fs
  | n + 1, fs, p =>
    match fs.locate p with
    | .ok (.directory _) => .ok fs
    | .ok (.file _) => .error (.fileExists p.text)
    | .error .missing => do
      if (fs.find? p.parent).isSome then return fs.put p (.directory [])
      let fs ← makeAt n fs p.parent
      match fs.locate p with
      | .ok _ => return fs
      | .error .missing => return fs.put p (.directory [])
      | .error o => throw (obstruction p o)
    | .error o => .error (obstruction p o)

/-- Make a directory and those around it. -/
def makeDirectory (fs : FileSystem) (p : Path) : Except Fault FileSystem :=
  makeAt (p.parts.length + 1) fs p

/-- Write a text to a file in a directory that is there. -/
def write (fs : FileSystem) (p : Path) (text : String) : Except Fault FileSystem :=
  match fs.locate p with
  | .ok (.directory _) => .error (.isDirectory p.text)
  | .ok (.file _) => .ok (fs.put p (.file (.text text)))
  | .error .missing =>
    if (fs.find? p.parent).isSome then .ok (fs.put p (.file (.text text)))
    else .error (.noSuchFile p.text)
  | .error o => .error (obstruction p o)

/-! ### Input files -/

/-- Whether a name is that of a document. -/
def isDocumentName (name : String) : Bool :=
  Path.suffix name = ".yml" || Path.suffix name = ".yaml"

/-- Whether the parts of one path come before those of another one. -/
def partsAtMost : List String → List String → Bool
  | [], _ => true
  | _ :: _, [] => false
  | a :: as, b :: bs => if a = b then partsAtMost as bs else decide (a < b)

/-- The files that an input stands for: a directory for the documents below it in order, anything else
for itself. -/
def inputFiles (fs : FileSystem) (input : Path) : Except Fault (List String) := do
  match ← fs.look input with
  | some (.directory es) =>
    let found := (FileTree.directory es).descendants.filter fun ps => isDocumentName (ps.getLastD "")
    return (found.mergeSort partsAtMost).map fun ps => (input.inside ps).text
  | _ => return [input.text]

/-- The files that some inputs stand for, each at its first place. -/
def collect (fs : FileSystem) (inputs : List Path) : Except Fault (List String) := do
  return appendNew [] (← inputs.mapM fs.inputFiles).flatten

end FileSystem

end DocGraph
