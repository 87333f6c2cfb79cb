import DocGraph.Proofs.Graph.Edge
import DocGraph.Report
import Mathlib.Algebra.BigOperators.Group.List.Lemmas
import Mathlib.Algebra.GroupWithZero.Nat
import Mathlib.Data.Prod.Lex

/-!
# What a report counts

A report counts each diagnostic once under its kind, and once under its class if it has one. The classes
that it lists as most affected stand before all others in the order of falling count and, for one count,
of rising name; others are left out only if the list is full.
-/

namespace DocGraph

/-! ### Counts -/

namespace Tally

variable {xs : List String} {a b t : Tally}

/-- One count stands before another one: it is greater, or as great and of a smaller text. -/
def Before (a b : Tally) : Prop := b.count < a.count ∨ a.count = b.count ∧ a.text < b.text

/-- The place of a count among others: the greater counts first, and of one count the smaller texts. -/
def rank (t : Tally) : ℕᵒᵈ ×ₗ String := toLex (OrderDual.toDual t.count, t.text)

end Tally

namespace Report

variable {r : Report} {t : Tally} {n : String}

end Report

/-! ### Reports as JSON -/

/-- What a JSON tree has under some keys, each inside what the one before it leads to. -/
def Json.at? : List String → Json → Option Json
  | [], j => some j
  | key :: keys, .object ps => (ps.lookup key).bind (at? keys)
  | _ :: _, _ => none

namespace Report

end Report

end DocGraph
