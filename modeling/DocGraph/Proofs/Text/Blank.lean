import DocGraph.Text.Blank
import Mathlib.Data.List.DropRight
import Mathlib.Tactic.Common

/-!
# What trimming leaves

Trimming leaves a text as it is if and only if the text neither begins nor ends with a blank, and what
trimming leaves never does.
-/

namespace DocGraph.Text

variable {s t : List Char}

/-- Some characters do not begin with a blank. -/
def BeginsBare (s : List Char) : Prop := ∀ c ∈ s.head?, isBlank c = false

/-- Some characters do not end with a blank. -/
def EndsBare (s : List Char) : Prop := ∀ c ∈ s.getLast?, isBlank c = false

instance (s : List Char) : Decidable (BeginsBare s) :=
  decidable_of_iff (s.head?.all (!isBlank ·) = true) (by cases h : s.head? <;> simp [BeginsBare, h])

instance (s : List Char) : Decidable (EndsBare s) :=
  decidable_of_iff (s.getLast?.all (!isBlank ·) = true) (by cases h : s.getLast? <;> simp [EndsBare, h])

lemma dropWhile_isBlank_eq_self_iff : s.dropWhile isBlank = s ↔ BeginsBare s := by
  cases s with
  | nil => simp [BeginsBare]
  | cons c s => rw [List.dropWhile_eq_self_iff]; simp [BeginsBare]

lemma dropBlankEnd_eq_self_iff : dropBlankEnd s = s ↔ EndsBare s := by
  have hlast : dropBlankEnd s = s.rdropWhile isBlank := rfl
  rw [hlast, List.rdropWhile_eq_self_iff, EndsBare]
  rcases List.eq_nil_or_concat s with rfl | ⟨s, c, rfl⟩ <;> simp

lemma trimChars_eq_self_iff : trimChars s = s ↔ BeginsBare s ∧ EndsBare s := by
  rw [← dropWhile_isBlank_eq_self_iff, ← dropBlankEnd_eq_self_iff, trimChars]
  constructor
  · intro h
    -- neither end has lost anything, for what is left is as long as the text
    have hfront : s.dropWhile isBlank = s := by
      have hend : dropBlankEnd (s.dropWhile isBlank) <+: s.dropWhile isBlank := List.rdropWhile_prefix _ _
      have hlength := hend.length_le
      rw [h] at hlength
      exact (List.dropWhile_suffix _).eq_of_length_le hlength
    exact ⟨hfront, by rwa [hfront] at h⟩
  · rintro ⟨hfront, hend⟩
    rw [hfront, hend]

lemma beginsBare_append (hs : s ≠ []) : BeginsBare (s ++ t) ↔ BeginsBare s := by
  rw [BeginsBare, BeginsBare, List.head?_append_of_ne_nil _ hs]

lemma endsBare_append (ht : t ≠ []) : EndsBare (s ++ t) ↔ EndsBare t := by
  rw [EndsBare, EndsBare, List.getLast?_append_of_ne_nil _ ht]

lemma trim_eq_self_iff {s : String} : trim s = s ↔ BeginsBare s.toList ∧ EndsBare s.toList := by
  rw [← trimChars_eq_self_iff, ← toList_trim, String.toList_inj]

/-- A text neither begins nor ends with a blank. -/
def IsTrimmed (s : String) : Prop := BeginsBare s.toList ∧ EndsBare s.toList

@[simp] lemma isTrimmed_empty : IsTrimmed "" := by simp [IsTrimmed, BeginsBare, EndsBare]

/-- Dropping blanks at the end brings none to the front. -/
lemma BeginsBare.dropBlankEnd (h : BeginsBare s) : BeginsBare (dropBlankEnd s) := by
  obtain ⟨t, ht⟩ : Text.dropBlankEnd s <+: s := List.rdropWhile_prefix _ _
  by_cases hnil : Text.dropBlankEnd s = []
  · simp [hnil, BeginsBare]
  · rwa [← ht, beginsBare_append hnil] at h

lemma isTrimmed_trim (s : String) : IsTrimmed (trim s) := by
  rw [IsTrimmed, toList_trim, trimChars]
  constructor
  · exact (dropWhile_isBlank_eq_self_iff.1 (List.dropWhile_idempotent _ _)).dropBlankEnd
  · exact dropBlankEnd_eq_self_iff.1 (List.rdropWhile_idempotent _ _)

end DocGraph.Text
