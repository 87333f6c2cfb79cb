import DocGraph.Proofs.Outcome
import DocGraph.Value.Text
import Mathlib.Algebra.GroupWithZero.Nat
import Mathlib.Tactic.Common

/-!
# Inspected values

A value can be written in brackets if there is room for the calls that this takes, and if no whole number
in it has more digits than are written. Each list and each mapping takes a call within that of the one
around it. How much more room there is than needed makes no difference.
-/

namespace DocGraph

/-! ### Calls within calls -/

section Deeper

variable {α : Type} {calls room room' : Nat} {b : Bool} {a : α} {e e' : Fault}

/-- What needs no room of its own is the same in all room that there is enough of. -/
lemma deeper_const_eq (h : calls ≤ room) (h' : calls ≤ room') (x : Except Fault α) :
    (deeper calls room fun _ => x) = deeper calls room' fun _ => x := by
  rw [deeper_of_le h, deeper_of_le h']

lemma exists_deeper_ite_iff :
    (∃ a', (deeper calls room fun _ => if b then .ok a else .error e) = .ok a') ↔
      calls ≤ room ∧ b = true := by
  simp only [deeper_eq_ok, exists_and_left]
  cases b <;> simp

lemma deeper_ite_eq_error (h : (deeper calls room fun _ => if b then .ok a else .error e) = .error e') :
    e' = .endless ∨ e' = e := by
  refine (deeper_eq_error h).imp_right fun h => ?_
  split at h
  · cases h
  · exact (Except.error.inj h).symm

end Deeper

/-! ### Scalars -/

namespace Scalar

variable {s : Scalar} {room room' : Nat} {e : Fault}

lemma isWritable_iff : s.isWritable = true ↔ ∀ n, s = .int n → n.natAbs < 10 ^ Number.digitLimit := by
  cases s with
  | int n => simp [isWritable, Number.isWritable]
  | _ => simp [isWritable]

lemma exists_inspectWithin_iff :
    (∃ t, s.inspectWithin room = .ok t) ↔ s.inspectCalls ≤ room ∧ s.isWritable = true :=
  exists_deeper_ite_iff

lemma inspectWithin_eq_error (h : s.inspectWithin room = .error e) :
    e = .endless ∨ e = .tooManyDigits none :=
  deeper_ite_eq_error h

lemma inspectWithin_eq (h : s.inspectCalls ≤ room) (h' : s.inspectCalls ≤ room') :
    s.inspectWithin room = s.inspectWithin room' :=
  deeper_const_eq h h' _

end Scalar

namespace Value

variable {v : Value} {xs : List Value} {ps : List (Scalar × Value)} {around : List (Nat × Bool)}
  {room room' k : Nat} {e : Fault}

/-! ### Parts -/

/-- What holds of a value if it holds of its parts holds of all values. -/
@[elab_as_elim]
lemma induction_parts {motive : Value → Prop} (scalar : ∀ s, motive (.scalar s))
    (list : ∀ xs, (∀ x ∈ xs, motive x) → motive (.list xs))
    (map : ∀ ps, (∀ p ∈ ps, motive p.2) → motive (.map ps))
    (loop : ∀ label body, motive body → motive (.loop label body)) (again : ∀ label, motive (.again label))
    (v : Value) : motive v :=
  match v with
  | .scalar s => scalar s
  | .list xs => list xs fun x _ => induction_parts scalar list map loop again x
  | .map ps => map ps fun p _ => induction_parts scalar list map loop again p.2
  | .loop label body => loop label body (induction_parts scalar list map loop again body)
  | .again label => again label
termination_by sizeOf v
decreasing_by
  · have := List.sizeOf_lt_of_mem ‹x ∈ xs›
    simp only [Value.list.sizeOf_spec]
    omega
  · have := List.sizeOf_lt_of_mem ‹p ∈ ps›
    obtain ⟨key, w⟩ := p
    simp only [Value.map.sizeOf_spec, Prod.mk.sizeOf_spec] at this ⊢
    omega
  · simp only [Value.loop.sizeOf_spec]
    omega

/-- A pair of a mapping, inspected. -/
def inspectPair (around : List (Nat × Bool)) (room : Nat) (p : Scalar × Value) : Except Fault String := do
  return (← p.1.inspectWithin room) ++ ": " ++ (← inspectIn around room p.2)

lemma inspectList_eq_mapM (around : List (Nat × Bool)) (room : Nat) (xs : List Value) :
    inspectList around room xs = xs.mapM (inspectIn around room) := by
  induction xs with
  | nil => rfl
  | cons x xs ih => rw [inspectList, ih, List.mapM_cons]

lemma inspectPairs_eq_mapM (around : List (Nat × Bool)) (room : Nat) (ps : List (Scalar × Value)) :
    inspectPairs around room ps = ps.mapM (inspectPair around room) := by
  induction ps with
  | nil => rfl
  | cons p ps ih =>
    rw [inspectPairs, ih, List.mapM_cons, inspectPair]
    simp only [bind_assoc, pure_bind]

/-! ### Calls -/

mutual

/-- The calls for a value in brackets, inside the loops with the given labels. -/
def inspectCallsIn (around : List (Nat × Bool)) : Value → Nat
  | .scalar s => s.inspectCalls
  | .list xs => 1 + inspectCallsOf around xs
  | .map ps => 1 + inspectCallsOfPairs around ps
  | .loop label body =>
    match around.lookup label with
    | some _ => 1
    | none => inspectCallsIn ((label, body.isMap) :: around) body
  | .again _ => 1

/-- The calls for the item that takes most of them. -/
def inspectCallsOf (around : List (Nat × Bool)) : List Value → Nat
  | [] => 0
  | v :: vs => max (inspectCallsIn around v) (inspectCallsOf around vs)

/-- The calls for the key or the value that takes most of them. -/
def inspectCallsOfPairs (around : List (Nat × Bool)) : List (Scalar × Value) → Nat
  | [] => 0
  | (key, v) :: ps =>
    max (max key.inspectCalls (inspectCallsIn around v)) (inspectCallsOfPairs around ps)

end

/-- The calls for a value in brackets. -/
def inspectCalls (v : Value) : Nat := inspectCallsIn [] v

lemma inspectCallsOf_le_iff :
    inspectCallsOf around xs ≤ k ↔ ∀ x ∈ xs, inspectCallsIn around x ≤ k := by
  induction xs with
  | nil => simp [inspectCallsOf]
  | cons x xs ih => rw [inspectCallsOf, Nat.max_le, ih, List.forall_mem_cons]

lemma inspectCallsOfPairs_le_iff :
    inspectCallsOfPairs around ps ≤ k ↔
      ∀ p ∈ ps, p.1.inspectCalls ≤ k ∧ inspectCallsIn around p.2 ≤ k := by
  induction ps with
  | nil => simp [inspectCallsOfPairs]
  | cons p ps ih => rw [inspectCallsOfPairs, Nat.max_le, Nat.max_le, ih, List.forall_mem_cons]

lemma inspectCallsIn_list_le_iff :
    inspectCallsIn around (.list xs) ≤ room ↔
      1 ≤ room ∧ ∀ x ∈ xs, inspectCallsIn around x ≤ room - 1 := by
  rw [inspectCallsIn, ← inspectCallsOf_le_iff]
  omega

lemma inspectCallsIn_map_le_iff :
    inspectCallsIn around (.map ps) ≤ room ↔
      1 ≤ room ∧ ∀ p ∈ ps, p.1.inspectCalls ≤ room - 1 ∧ inspectCallsIn around p.2 ≤ room - 1 := by
  rw [inspectCallsIn, ← inspectCallsOfPairs_le_iff]
  omega

/-! ### Whole numbers -/

/-- A whole number is written out in a value, as a key or as itself, inside the loops with the given
labels. -/
inductive ShowsIn (n : Int) : List (Nat × Bool) → Value → Prop
  | number {around : List (Nat × Bool)} : ShowsIn n around (.int n)
  | item {around : List (Nat × Bool)} {xs : List Value} {x : Value} (hx : x ∈ xs)
    (h : ShowsIn n around x) : ShowsIn n around (.list xs)
  | key {around : List (Nat × Bool)} {ps : List (Scalar × Value)} {v : Value} (hp : (.int n, v) ∈ ps) :
    ShowsIn n around (.map ps)
  | value {around : List (Nat × Bool)} {ps : List (Scalar × Value)} {p : Scalar × Value} (hp : p ∈ ps)
    (h : ShowsIn n around p.2) : ShowsIn n around (.map ps)
  | loop {around : List (Nat × Bool)} {label : Nat} {body : Value} (hlabel : around.lookup label = none)
    (h : ShowsIn n ((label, body.isMap) :: around) body) : ShowsIn n around (.loop label body)

/-- A whole number is written out in a value, as a key or as itself. -/
def Shows (n : Int) (v : Value) : Prop := ShowsIn n [] v

/-- All whole numbers that are written out in a value are short enough for that. -/
def IsShortIn (around : List (Nat × Bool)) (v : Value) : Prop :=
  ∀ n, ShowsIn n around v → n.natAbs < 10 ^ Number.digitLimit

namespace IsShortIn

lemma scalar_iff {s : Scalar} : IsShortIn around (.scalar s) ↔ s.isWritable = true := by
  rw [Scalar.isWritable_iff]
  constructor
  · rintro h n rfl
    exact h n .number
  · rintro h n ⟨⟩
    exact h n rfl

lemma list_iff : IsShortIn around (.list xs) ↔ ∀ x ∈ xs, IsShortIn around x := by
  constructor
  · exact fun h x hx n hn => h n (.item hx hn)
  · rintro h n (_ | ⟨hx, hn⟩)
    exact h _ hx n hn

lemma map_iff :
    IsShortIn around (.map ps) ↔ ∀ p ∈ ps, p.1.isWritable = true ∧ IsShortIn around p.2 := by
  constructor
  · intro h p hp
    refine ⟨Scalar.isWritable_iff.2 fun n hn => ?_, fun n hn => h n (.value hp hn)⟩
    exact h n (.key (v := p.2) (hn ▸ hp))
  · rintro h n (_ | _ | hp | ⟨hp, hn⟩)
    · exact Scalar.isWritable_iff.1 (h _ hp).1 n rfl
    · exact (h _ hp).2 n hn

lemma again (label : Nat) : IsShortIn around (.again label) := by
  rintro n ⟨⟩

end IsShortIn

/-! ### Texts in brackets -/

/-- A value can be written in brackets if there is room for it and its whole numbers are short enough. -/
lemma exists_inspectIn_iff :
    (∃ t, inspectIn around room v = .ok t) ↔ inspectCallsIn around v ≤ room ∧ IsShortIn around v := by
  induction v using induction_parts generalizing around room with
  | scalar s => rw [inspectIn, Scalar.exists_inspectWithin_iff, IsShortIn.scalar_iff, inspectCallsIn]
  | list xs ih =>
    have hitems : (∃ ts, inspectList around (room - 1) xs = .ok ts) ↔
        ∀ x ∈ xs, inspectCallsIn around x ≤ room - 1 ∧ IsShortIn around x := by
      rw [inspectList_eq_mapM, exists_mapM_eq_ok_iff]
      exact forall₂_congr fun x hx => ih x hx
    rw [inspectCallsIn_list_le_iff, IsShortIn.list_iff, and_assoc, ← forall₂_and, ← hitems]
    simp [inspectIn]
  | map ps ih =>
    have hpairs : (∃ ts, inspectPairs around (room - 1) ps = .ok ts) ↔
        ∀ p ∈ ps, (p.1.inspectCalls ≤ room - 1 ∧ inspectCallsIn around p.2 ≤ room - 1) ∧
          p.1.isWritable = true ∧ IsShortIn around p.2 := by
      rw [inspectPairs_eq_mapM, exists_mapM_eq_ok_iff]
      refine forall₂_congr fun p hp => ?_
      rw [and_and_and_comm, ← Scalar.exists_inspectWithin_iff, ← ih p hp]
      simp [inspectPair]
    rw [inspectCallsIn_map_le_iff, IsShortIn.map_iff, and_assoc, ← forall₂_and, ← hpairs]
    simp [inspectIn]
  | loop label body ih =>
    rw [inspectIn, inspectCallsIn]
    cases hlabel : around.lookup label with
    | some isMap =>
      have hshort : IsShortIn around (.loop label body) := by
        rintro n (_ | _ | _ | _ | ⟨hnone, -⟩)
        cases hlabel.symm.trans hnone
      simp [hshort]
    | none =>
      rw [ih]
      refine and_congr_right fun _ => forall_congr' fun n => imp_congr_left ⟨.loop hlabel, ?_⟩
      rintro (_ | _ | _ | _ | ⟨-, h⟩)
      exact h
  | again label => simp [inspectIn, inspectCallsIn, IsShortIn.again]

/-- A value that cannot be written in brackets is too deep, or has too long a number. -/
lemma inspectIn_eq_error (h : inspectIn around room v = .error e) :
    e = .endless ∨ e = .tooManyDigits none := by
  induction v using induction_parts generalizing around room with
  | scalar s => exact Scalar.inspectWithin_eq_error h
  | list xs ih =>
    rcases deeper_eq_error h with h | h
    · exact .inl h
    · simp only [inspectList_eq_mapM, bind_eq_error, pure_ne_error, and_false, exists_false, or_false] at h
      obtain ⟨x, hx, h⟩ := exists_of_mapM_eq_error h
      exact ih x hx h
  | map ps ih =>
    rcases deeper_eq_error h with h | h
    · exact .inl h
    · simp only [inspectPairs_eq_mapM, bind_eq_error, pure_ne_error, and_false, exists_false, or_false] at h
      obtain ⟨p, hp, h⟩ := exists_of_mapM_eq_error h
      simp only [inspectPair, bind_eq_error, pure_ne_error, and_false, exists_false, or_false] at h
      rcases h with h | ⟨_, -, h⟩
      · exact Scalar.inspectWithin_eq_error h
      · exact ih p hp h
  | loop label body ih =>
    rw [inspectIn] at h
    split at h
    · exact .inl ((deeper_eq_error h).resolve_right (by simp))
    · exact ih h
  | again label => exact .inl ((deeper_eq_error h).resolve_right (by simp))

/-- More room than needed changes nothing. -/
lemma inspectIn_eq (h : inspectCallsIn around v ≤ room) (h' : inspectCallsIn around v ≤ room') :
    inspectIn around room v = inspectIn around room' v := by
  induction v using induction_parts generalizing around room room' with
  | scalar s => exact Scalar.inspectWithin_eq h h'
  | list xs ih =>
    rw [inspectCallsIn_list_le_iff] at h h'
    rw [inspectIn, inspectIn, deeper_of_le h.1, deeper_of_le h'.1, inspectList_eq_mapM,
      inspectList_eq_mapM, mapM_congr fun x hx => ih x hx (h.2 x hx) (h'.2 x hx)]
  | map ps ih =>
    rw [inspectCallsIn_map_le_iff] at h h'
    have hpairs : ∀ p ∈ ps, inspectPair around (room - 1) p = inspectPair around (room' - 1) p := by
      intro p hp
      obtain ⟨hkey, hvalue⟩ := h.2 p hp
      obtain ⟨hkey', hvalue'⟩ := h'.2 p hp
      rw [inspectPair, inspectPair, Scalar.inspectWithin_eq hkey hkey', ih p hp hvalue hvalue']
    rw [inspectIn, inspectIn, deeper_of_le h.1, deeper_of_le h'.1, inspectPairs_eq_mapM,
      inspectPairs_eq_mapM, mapM_congr hpairs]
  | loop label body ih =>
    rw [inspectCallsIn] at h h'
    rw [inspectIn, inspectIn]
    cases hlabel : around.lookup label with
    | some isMap =>
      rw [hlabel] at h h'
      simp only [deeper_of_le h, deeper_of_le h']
    | none =>
      rw [hlabel] at h h'
      exact ih h h'
  | again label =>
    rw [inspectCallsIn] at h h'
    rw [inspectIn, inspectIn, deeper_of_le h, deeper_of_le h']

lemma exists_inspectWithin_iff :
    (∃ t, v.inspectWithin room = .ok t) ↔
      v.inspectCalls ≤ room ∧ ∀ n, v.Shows n → n.natAbs < 10 ^ Number.digitLimit :=
  exists_inspectIn_iff

lemma inspectWithin_eq (h : v.inspectCalls ≤ room) (h' : v.inspectCalls ≤ room') :
    v.inspectWithin room = v.inspectWithin room' := inspectIn_eq h h'

end Value

end DocGraph
