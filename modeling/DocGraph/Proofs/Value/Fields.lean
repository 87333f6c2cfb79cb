import DocGraph.Proofs.Outcome
import DocGraph.Proofs.Value.Order
import DocGraph.Value.Text

/-!
# Fields of mappings

A value has pairs if and only if it is a mapping, and fields if and only if it has pairs. A field is found
under its name and under nothing else. What has a field counts as true.
-/

namespace DocGraph.Value

variable {v w : Value} {ps qs : List (Scalar × Value)} {key : Scalar} {n name : String}

/-! ### Looking up keys -/

lemma find?_cons (key' : Scalar) :
    find? ((key, v) :: ps) key' = if key.same key' then some v else find? ps key' := by
  rw [find?, List.find?_cons]
  cases key.same key' <;> rfl

@[simp] lemma find?_cons_self : find? ((.text n, v) :: ps) (.text n) = some v := by
  simp [find?_cons, Scalar.text_same_iff]

lemma find?_cons_of_ne (h : key ≠ .text n) : find? ((key, v) :: ps) (.text n) = find? ps (.text n) := by
  rw [find?_cons, if_neg (by rwa [Scalar.same_text_iff])]

lemma find?_append (ps qs : List (Scalar × Value)) (key : Scalar) :
    find? (ps ++ qs) key = (find? ps key).or (find? qs key) := by
  simp [find?, List.find?_append, Option.map_or]

@[simp] lemma fieldOf_nil : fieldOf [] n = .null := rfl

@[simp] lemma fieldOf_cons_self : fieldOf ((.text n, v) :: ps) n = v := by simp [fieldOf]

@[simp] lemma fieldOf_cons_of_ne (h : key ≠ .text n) : fieldOf ((key, v) :: ps) n = fieldOf ps n := by
  simp [fieldOf, find?_cons_of_ne h]

/-! ### Fields -/

@[simp] lemma pairs?_eq_ok_iff : v.pairs? = .ok ps ↔ v.opened = .map ps := by
  rw [pairs?]
  cases v.opened <;> simp

lemma field_eq_ok_iff : v.field name = .ok w ↔ ∃ ps, v.opened = .map ps ∧ fieldOf ps name = w := by
  simp only [field, bind_eq_ok, pure_eq_ok, pairs?_eq_ok_iff]

/-- A mapping counts as true unless it is empty. -/
lemma isTruthy_of_opened_eq_map (h : v.opened = .map ps) : v.isTruthy = !ps.isEmpty := by
  cases v with
  | map qs =>
    obtain rfl : qs = ps := by simpa using h
    rfl
  | loop label body =>
    cases body with
    | map qs =>
      obtain rfl : fillPairs label (.loop label (.map qs)) qs = ps := by simpa [opened, fill] using h
      cases qs <;> rfl
    | loop _ _ | again _ =>
      -- opened once, such a loop still is a loop
      simp only [opened, fill] at h
      split at h <;> cases h
    | _ => simp [opened, fill] at h
  | _ => simp [opened] at h

lemma fieldOf_ne_null (h : fieldOf ps name ≠ .null) : ps.isEmpty = false := by
  cases ps with
  | nil => exact absurd rfl h
  | cons p ps => rfl

/-- What has a field is not empty. -/
lemma orEmpty_of_field_eq_ok (h : v.field name = .ok w) (hw : w ≠ .null) : v.orEmpty = v := by
  obtain ⟨ps, hps, rfl⟩ := field_eq_ok_iff.1 h
  rw [orEmpty, isTruthy_of_opened_eq_map hps, fieldOf_ne_null hw]
  rfl

/-! ### Texts of fields -/

@[simp] lemma asText_text (s : String) : (Value.text s).asText = .ok (Text.trim s) := rfl

lemma asText?_text (s : String) :
    (Value.text s).asText? = .ok (if (Text.trim s).isEmpty then none else some (Text.trim s)) := rfl

lemma textOf_of_null (h : fieldOf ps n = .null) : textOf ps n = .ok "" := by
  rw [textOf, h]
  rfl

lemma textOf?_of_null (h : fieldOf ps n = .null) : textOf? ps n = .ok none := by
  rw [textOf?, h]
  rfl

lemma textOf_of_text {s : String} (h : fieldOf ps n = .text s) : textOf ps n = .ok (Text.trim s) := by
  rw [textOf, h, asText_text]

lemma textOf?_of_text {s : String} (h : fieldOf ps n = .text s) (hne : Text.trim s ≠ "") :
    textOf? ps n = .ok (some (Text.trim s)) := by
  rw [textOf?, h, asText?_text, if_neg (by simpa using hne)]

end DocGraph.Value
