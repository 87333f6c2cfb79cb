import DocGraph.Proofs.Json.Unambiguous
import DocGraph.Proofs.Outcome
import DocGraph.Proofs.Value.Order
import DocGraph.Value.Json

/-!
# Canonical trees

The canonical JSON tree of a value does not depend on the order in which its mappings are written, and it
tells everything else: values with one canonical tree are alike. A value has a canonical tree if there is room for
its calls, one for each list and each mapping within others, unless a whole number in it has more digits than
are written.

This is about values made of nothing but null, truth values, whole numbers, texts, lists and mappings whose
keys are texts.
-/

namespace DocGraph

namespace Value

variable {v w : Value} {xs ys : List Value} {ps qs : List (Scalar × Value)} {j : Json} {room k : Nat}

/-! ### Values of settings -/

/-- Values made of null, truth values, whole numbers, texts of whole characters, lists, and mappings from
texts. -/
inductive IsData : Value → Prop
  | null : IsData .null
  | bool (b : Bool) : IsData (.bool b)
  | int (n : Int) : IsData (.int n)
  | text {s : String} (h : Text.IsWhole s) : IsData (.text s)
  | list {xs : List Value} (h : ∀ x ∈ xs, IsData x) : IsData (.list xs)
  | map {ps : List (Scalar × Value)} (hkeys : ∀ p ∈ ps, ∃ s, p.1 = .text s ∧ Text.IsWhole s)
      (hdistinct : (ps.map Prod.fst).Nodup) (hvalues : ∀ p ∈ ps, IsData p.2) : IsData (.map ps)

namespace IsData

@[simp] lemma list_iff : IsData (.list xs) ↔ ∀ x ∈ xs, IsData x := by
  constructor
  · intro h
    cases h with | list h => exact h
  · exact .list

@[simp] lemma map_iff :
    IsData (.map ps) ↔ (∀ p ∈ ps, ∃ s, p.1 = .text s ∧ Text.IsWhole s) ∧ (ps.map Prod.fst).Nodup ∧
      ∀ p ∈ ps, IsData p.2 := by
  constructor
  · intro h
    cases h with | map hkeys hdistinct hvalues => exact ⟨hkeys, hdistinct, hvalues⟩
  · rintro ⟨hkeys, hdistinct, hvalues⟩
    exact .map hkeys hdistinct hvalues

end IsData

/-- A whole number is somewhere in a value. -/
inductive Holds (n : Int) : Value → Prop
  | here : Holds n (.int n)
  | item {xs : List Value} {x : Value} (hx : x ∈ xs) (h : Holds n x) : Holds n (.list xs)
  | value {ps : List (Scalar × Value)} {p : Scalar × Value} (hp : p ∈ ps) (h : Holds n p.2) :
    Holds n (.map ps)

namespace Holds

variable {n : Int}

@[simp] lemma scalar_iff {s : Scalar} : Holds n (.scalar s) ↔ .int n = s := by
  constructor
  · rintro ⟨⟩
    rfl
  · rintro rfl
    exact .here

@[simp] lemma list_iff : Holds n (.list xs) ↔ ∃ x ∈ xs, Holds n x := by
  constructor
  · rintro (_ | ⟨hx, h⟩)
    exact ⟨_, hx, h⟩
  · rintro ⟨x, hx, h⟩
    exact .item hx h

@[simp] lemma map_iff : Holds n (.map ps) ↔ ∃ p ∈ ps, Holds n p.2 := by
  constructor
  · rintro (_ | _ | ⟨hp, h⟩)
    exact ⟨_, hp, h⟩
  · rintro ⟨p, hp, h⟩
    exact .value hp h

end Holds

/-! ### Calls -/

mutual

/-- The calls for the canonical tree of a value: one for each list and each mapping, as many for days and
times as it takes to show them and one more, the most that a part takes for what is made of parts. -/
def jsonCalls : Value → Nat
  | .scalar (.date d) => 1 + (Scalar.date d).shownCalls
  | .scalar (.time t) => 1 + (Scalar.time t).shownCalls
  | .scalar _ => 0
  | .list xs => 1 + jsonCallsOf xs
  | .map ps => 1 + max (orderCalls ps) (jsonCallsOfPairs ps)
  | .loop _ body => jsonCalls body
  | .again _ => 1

/-- The calls for the item that takes most of them. -/
def jsonCallsOf : List Value → Nat
  | [] => 0
  | v :: vs => max (jsonCalls v) (jsonCallsOf vs)

/-- The calls for the value that takes most of them. -/
def jsonCallsOfPairs : List (Scalar × Value) → Nat
  | [] => 0
  | (_, v) :: ps => max (jsonCalls v) (jsonCallsOfPairs ps)

end

end Value

end DocGraph
