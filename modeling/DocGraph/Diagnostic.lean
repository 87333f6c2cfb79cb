/-!
# Diagnostics

A diagnostic is a problem that was found and passed over. Its kind is open: the kinds named here are
the ones that this library gives.
-/

namespace DocGraph

/-- The kind of a problem. -/
structure DiagnosticKind where
  name : String
  deriving DecidableEq, Repr

namespace DiagnosticKind

/-- Something that is referred to does not exist. -/
def unresolvedReference : DiagnosticKind := ⟨"UnresolvedReferenceWarning"⟩

/-- References that should end come back to where they began. -/
def structuralCycle : DiagnosticKind := ⟨"StructuralCycleWarning"⟩

/-- A member is defined again. -/
def duplicateDefinition : DiagnosticKind := ⟨"DuplicateDefinitionWarning"⟩

/-- The finished documentation has a flaw. -/
def lint : DiagnosticKind := ⟨"LintWarning"⟩

end DiagnosticKind

/-- A problem that was passed over, and what and where it is about. -/
structure Diagnostic where
  kind : DiagnosticKind
  message : String
  cls : Option String := none
  member : Option String := none
  file : String := ""
  line : Int := 0
  deriving DecidableEq, Repr

namespace Diagnostic

/-- The file and the line, as far as they are known. A line without a file says nothing. -/
def location (d : Diagnostic) : String :=
  if d.file.isEmpty then ""
  else if d.line = 0 then d.file
  else d.file ++ ":" ++ toString d.line

/-- The diagnostic on one line, with its location if there is one. -/
def logText (d : Diagnostic) : String :=
  d.kind.name ++ ": " ++ d.message ++
    (if d.location.isEmpty then "" else " (" ++ d.location ++ ")")

end Diagnostic

end DocGraph
