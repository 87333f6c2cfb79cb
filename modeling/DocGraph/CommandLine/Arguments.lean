import DocGraph.CommandLine.Grammar
import DocGraph.Files.Path
import DocGraph.Number.Reader

/-!
# Arguments

What a run is asked to do. A run over the standard places reads `fragments` and writes to `build`; it
can be told a configuration file, and whether to say more.
-/

namespace DocGraph.CommandLine

/-- What a run is asked to do. An empty text stands for a path that is not given. -/
structure Arguments where
  inputs : List Path := []
  config : String := ""
  workers : Option Int := none
  out : Option Path := none
  report : String := ""
  withTree : Bool := false
  verbose : Bool := false

/-- The two options for help. -/
def helpRules (α : Type) : List (OptionRule α) := [⟨"-h", .help⟩, ⟨"--help", .help⟩]

namespace Arguments

/-- The whole number that a text is. -/
def wholeNumber? (s : String) : Option Int := (Number.integer 10 s).toOption

/-- The command line of a run. -/
def grammar : Grammar Arguments where
  options := helpRules Arguments ++ [
    ⟨"--config", .take fun s a => some { a with config := s.getD "" }⟩,
    ⟨"--workers", .take fun s a => do return { a with workers := ← s.mapM wholeNumber? }⟩,
    ⟨"--out", .take fun s a => some { a with out := s.map Path.ofText }⟩,
    ⟨"--report", .take fun s a => some { a with report := s.getD "" }⟩,
    ⟨"--package-tree", .mark fun a => { a with withTree := true }⟩,
    ⟨"--verbose", .mark fun a => { a with verbose := true }⟩]
  operands := some fun texts a => { a with inputs := texts.map Path.ofText }

/-- Read the command line of a run. -/
def read (line : List String) : Reading Arguments := grammar.read {} line

end Arguments

/-! ### The standard places -/

/-- What a run over the standard places can be told. -/
structure StandardArguments where
  config : String := ""
  verbose : Bool := false

namespace StandardArguments

/-- The command line of a run over the standard places. -/
def grammar : Grammar StandardArguments where
  options := helpRules StandardArguments ++ [
    ⟨"--config", .take fun s a => some { a with config := s.getD "" }⟩,
    ⟨"--verbose", .mark fun a => { a with verbose := true }⟩]
  operands := none

/-- The command line for the same run with its places written out. -/
def line (a : StandardArguments) : List String :=
  ["fragments", "--out", "build/classes.json", "--report", "build/diagnostics.json",
    "--package-tree"] ++
    (if a.config.isEmpty then [] else ["--config", a.config]) ++
    (if a.verbose then ["--verbose"] else [])

/-- Read the command line of a run over the standard places. -/
def read (line : List String) : Reading Arguments :=
  match grammar.read {} line with
  | .help => .help
  | .invalid => .invalid
  | .arguments a => Arguments.read a.line

end StandardArguments

end DocGraph.CommandLine
