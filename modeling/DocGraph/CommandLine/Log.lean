import DocGraph.Journal

/-!
# Logs

A journal as lines of a log. Each line has a level and a source, which says what part of the work it
comes from.
-/

namespace DocGraph.CommandLine

/-- How important a line is. -/
inductive Level
  | debug
  | info
  | warning
  | critical
  deriving DecidableEq, Repr

namespace Level

/-- The word for a level. -/
def name : Level → String
  | .debug => "DEBUG"
  | .info => "INFO"
  | .warning => "WARNING"
  | .critical => "CRITICAL"

/-- Whether lines of a level are shown even if little is to be said. -/
def isUrgent : Level → Bool
  | .debug | .info => false
  | .warning | .critical => true

end Level

/-- A line of a log. -/
structure LogLine where
  level : Level
  source : String
  message : String
  deriving DecidableEq, Repr

namespace LogLine

/-- The text of a line. -/
def text (l : LogLine) : String := l.level.name ++ " classdoc." ++ l.source ++ ": " ++ l.message

/-- The line for an event. -/
def ofEvent : Event → LogLine
  | .stage name subject => ⟨.info, "progress", name ++ " " ++ subject⟩
  | .unheard name subject =>
    ⟨.debug, "progress", "Progress sink failed on " ++ name ++ " " ++ subject⟩
  | .pooled files workers =>
    ⟨.debug, "parse_coordinator",
      "Parsing " ++ toString files ++ " files with " ++ toString workers ++ " workers"⟩
  | .warning d => ⟨.warning, "diagnostic", d.logText⟩
  | .classIgnored cls => ⟨.debug, "ignored_classes", "Ignoring class " ++ cls⟩
  | .ruleApplied rule => ⟨.debug, "framework_quirks", "Applied framework quirk " ++ rule⟩
  | .overrideApplied cls target =>
    ⟨.debug, "overrides", "Applying override " ++ cls ++ " to " ++ target⟩
  | .docInherited member source =>
    ⟨.debug, "inherit_doc", member.text ++ " inherits docs from " ++ source.text⟩
  | .resolved classes diagnostics =>
    ⟨.info, "batch_parser", "Resolved " ++ toString classes ++ " classes with " ++
      toString diagnostics ++ " diagnostics"⟩

end LogLine

end DocGraph.CommandLine
