import DocGraph.Settings.Basic
import DocGraph.Sha256
import DocGraph.Value.Json

/-!
# The hash of settings

Settings that hold the same values have the same canonical text, in whatever order they are written,
and so the same hash.
-/

namespace DocGraph.Settings

/-- The canonical text of settings, with room for some calls. -/
def canonicalText (room : Nat) (s : Settings) : Except Fault String :=
  return (← s.value.canonicalJson room).compact

/-- The hash of settings, with room for some calls. -/
def hashWithin (room : Nat) (s : Settings) : Except Fault String :=
  return Sha256.hexOfText (← s.canonicalText room)

/-- The hash of settings. -/
def hash (s : Settings) : Except Fault String := s.hashWithin callRoom

end DocGraph.Settings
