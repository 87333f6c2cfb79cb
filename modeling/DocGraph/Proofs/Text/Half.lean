import DocGraph.Text.Half
import Mathlib.Data.List.Basic
import Mathlib.Data.String.Basic
import Mathlib.Tactic.Common

/-!
# Kept texts

A text is kept in a way that tells its code points, and that orders texts as their code points do.
-/

namespace DocGraph.Text

variable {c : Char} {n : Nat}

/-! ### Units -/

/-- No character has the number of a half. -/
lemma toNat_lt_or_lt (c : Char) : c.toNat < 0xD800 ∨ 0xDFFF < c.toNat ∧ c.toNat < 0x110000 := c.valid

lemma toNat_ofNat (h : n < 0xD800 ∨ 0xDFFF < n ∧ n < 0x110000) : (Char.ofNat n).toNat = n := by
  rw [Char.ofNat, dif_pos h]
  rfl

lemma toNat_mark : mark.toNat = 0xE800 := rfl

lemma isHalf_iff : isHalf c = true ↔ 0xE000 ≤ c.toNat ∧ c.toNat ≤ 0xE7FF := by
  rw [isHalf, unit?]
  split
  next h => exact iff_of_true rfl h
  next h => exact iff_of_false Bool.false_ne_true h

lemma isTaken_iff : isTaken c = true ↔ 0xE000 ≤ c.toNat ∧ c.toNat ≤ 0xE800 := by
  rw [isTaken, Bool.or_eq_true, isHalf_iff, beq_iff_eq, ← Char.toNat_inj, toNat_mark]
  omega

lemma unit?_eq_none_iff : unit? c = none ↔ c.toNat < 0xE000 ∨ 0xE7FF < c.toNat := by
  rw [← Option.not_isSome_iff_eq_none]
  change ¬isHalf c = true ↔ _
  rw [isHalf_iff]
  omega

/-! ### Code points -/

/-- How a code point is kept. -/
inductive IsKept : CodePoint → List Char → Prop
  | char {c : Char} (h : c.toNat < 0xD800 ∨ 0xE800 < c.toNat) : IsKept (.char c) [c]
  | taken {c d : Char} (h : 0xE000 ≤ c.toNat ∧ c.toNat ≤ 0xE800) (hd : d.toNat = c.toNat + 0x801) :
    IsKept (.char c) [mark, d]
  | half {d : Char} {n : Fin 0x800} (h : d.toNat < 0xE800) (hd : d.toNat = 0xE000 + n) : IsKept (.half n) [d]

variable {p q : CodePoint} {ps qs : List CodePoint} {r s x y : List Char}

lemma isKept_kept (p : CodePoint) : IsKept p p.kept := by
  cases p with
  | char c =>
    rw [CodePoint.kept]
    split
    next h =>
      rw [isTaken_iff] at h
      exact .taken h (toNat_ofNat (by omega))
    next h =>
      rw [isTaken_iff] at h
      have hc := toNat_lt_or_lt c
      exact .char (by omega)
  | half n =>
    have hn := n.isLt
    have hd : (ofHalf (firstHalf + n)).toNat = 0xE000 + n := by
      rw [ofHalf, firstHalf, toNat_ofNat (by omega)]
      omega
    exact .half (by omega) hd

lemma pointsOf_cons_of_ne (h : c ≠ mark) (s : List Char) : pointsOf (c :: s) = .ofKept c :: pointsOf s := by
  cases s with
  | nil => rfl
  | cons d s => rw [pointsOf, if_neg h]

lemma ofKept_eq_char (h : unit? c = none) : CodePoint.ofKept c = .char c := by
  simp only [CodePoint.ofKept, h]

lemma ofKept_eq_half {m : Fin 0x800} (h : unit? c = some (firstHalf + m)) : CodePoint.ofKept c = .half m := by
  simp only [CodePoint.ofKept, h, CodePoint.ofUnit, Nat.add_sub_cancel_left, Nat.mod_eq_of_lt m.isLt]

/-- What a code point is kept as tells the code point, and where it ends. -/
lemma IsKept.pointsOf_append (h : IsKept p r) (s : List Char) : pointsOf (r ++ s) = p :: pointsOf s := by
  have hmark {e : Char} (he : e.toNat ≠ 0xE800) : e ≠ mark := by
    rintro rfl
    exact he toNat_mark
  cases h with
  | @char c h =>
    have hunit : unit? c = none := unit?_eq_none_iff.2 (by omega)
    rw [List.singleton_append, pointsOf_cons_of_ne (hmark (by omega)), ofKept_eq_char hunit]
  | @taken c d h hd =>
    have hnumber : d.toNat - 0x801 = c.toNat := by omega
    have hc : Char.ofNat (d.toNat - 0x801) = c := by rw [hnumber, Char.ofNat_toNat]
    rw [List.cons_append, List.singleton_append, pointsOf, if_pos rfl, hc]
  | @half d n h hd =>
    have hnumber : d.toNat - 0x800 = firstHalf + n := by
      rw [firstHalf]
      omega
    have hunit : unit? d = some (firstHalf + n) := by
      rw [unit?, hnumber]
      exact if_pos (by omega)
    rw [List.singleton_append, pointsOf_cons_of_ne (hmark (by omega)), ofKept_eq_half hunit]

/-- A text tells its code points. -/
lemma points_keep (ps : List CodePoint) : points (keep ps) = ps := by
  rw [points, keep, String.toList_ofList]
  induction ps with
  | nil => rfl
  | cons p ps ih => rw [List.flatMap_cons, (isKept_kept p).pointsOf_append, ih]

lemma points_ofString (s : String) : points (ofString s) = s.toList.map .char := points_keep _

/-- No two strings are the same text. -/
lemma ofString_inj {s t : String} : ofString s = ofString t ↔ s = t := by
  refine ⟨fun h => ?_, congrArg ofString⟩
  have hpoints := congrArg points h
  rw [points_ofString, points_ofString] at hpoints
  exact String.toList_inj.1 (List.map_injective_iff.2 (fun _ _ => CodePoint.char.inj) hpoints)

lemma char_lt_iff {c d : Char} : c < d ↔ c.toNat < d.toNat := Iff.rfl

/-- What code points are kept as has their order. -/
lemma IsKept.append_lt_append_iff (hp : IsKept p x) (hq : IsKept q y) :
    x ++ r < y ++ s ↔ p.number < q.number ∨ p.number = q.number ∧ r < s := by
  by_cases hrest : r < s <;> cases hp <;> cases hq <;>
    simp only [List.cons_append, List.nil_append, List.cons_lt_cons_iff, char_lt_iff, ← Char.toNat_inj,
      toNat_mark, CodePoint.number, firstHalf, hrest, and_true, true_and, and_false, or_false] <;>
    omega

lemma IsKept.ne_nil (h : IsKept p x) : x ≠ [] := by cases h <;> exact List.cons_ne_nil _ _

/-- Texts have the order of their code points. -/
lemma keep_lt_keep_iff : keep ps < keep qs ↔ ps.map CodePoint.number < qs.map CodePoint.number := by
  rw [keep, keep, String.lt_iff_toList_lt, String.toList_ofList, String.toList_ofList]
  induction ps generalizing qs with
  | nil =>
    cases qs with
    | nil => simp
    | cons q qs =>
      obtain ⟨c, s, hkept⟩ := List.exists_cons_of_ne_nil (isKept_kept q).ne_nil
      simp [hkept]
  | cons p ps ih =>
    cases qs with
    | nil => simp
    | cons q qs =>
      rw [List.flatMap_cons, List.flatMap_cons, (isKept_kept p).append_lt_append_iff (isKept_kept q), ih,
        List.map_cons, List.map_cons, List.cons_lt_cons_iff]

end DocGraph.Text
