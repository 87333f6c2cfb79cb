import DocGraph.Text.Case
import Mathlib.Data.List.Forall2
import Mathlib.Tactic.Common

/-!
# Words in any letter case

A text has a given word as its small form if it is that word in any letter case. For the letters of the
English alphabet this means that each character is the letter or its capital, except for the letter k, which
has a further capital.
-/

namespace DocGraph.Text

/-- The letters that are the small form of one capital only. -/
def plainLetters : List Char := "abcdefghijlmnopqrstuvwxyz".toList

/-- A character is a small letter or its capital. -/
def IsCaseOf (c x : Char) : Prop := c = x ∨ c = x.toUpper

instance (c x : Char) : Decidable (IsCaseOf c x) := inferInstanceAs (Decidable (_ ∨ _))

/-- A text is a word in any letter case. -/
def IsSpelling (s w : String) : Prop := List.Forall₂ IsCaseOf s.toList w.toList

variable {c x : Char} {n : Nat}

/-- A number of which a character is made is that of the character, unless it is the one for all others. -/
lemma toNat_ofNat_of_ne (h : (Char.ofNat n).toNat ≠ 0) : (Char.ofNat n).toNat = n := by
  by_cases hv : n.isValidChar
  · rw [Char.ofNat, dif_pos hv]
    rfl
  · rw [Char.ofNat, dif_neg hv] at h
    exact absurd rfl h

lemma toNat_pos_of_mem (hx : x ∈ plainLetters) : 0 < x.toNat := by
  have hword : plainLetters.all fun x => 0 < x.toNat := by decide +kernel
  exact of_decide_eq_true (List.all_eq_true.1 hword x hx)

/-- No run leads to a plain letter but the one of its capital. -/
lemma eq_of_image? {r : CaseRun} (hr : r ∈ smallRuns) (hx : x ∈ plainLetters)
    (h : r.image? n = some x.toNat) : n + 32 = x.toNat := by
  -- a run that leads to the letter has one place only from which it does
  have hruns : ∀ r ∈ smallRuns, plainLetters.all fun x => (r.first : Int) ≤ x.toNat - r.shift →
      x.toNat - r.shift ≤ (r.last : Int) → r.shift = 32 := by decide +kernel
  have hrun := of_decide_eq_true (List.all_eq_true.1 (hruns r hr) x hx)
  have hpos := toNat_pos_of_mem hx
  simp only [CaseRun.image?, Bool.and_eq_true, decide_eq_true_eq] at h
  split_ifs at h with hn
  obtain ⟨⟨hfirst, hlast⟩, -⟩ := hn
  rw [Option.some.injEq] at h
  have hshift := hrun (by omega) (by omega)
  omega

/-- Neither a small sigma nor what a dotted capital has beside its letter is in a word of plain letters, nor
are their capitals. -/
lemma not_isCaseOf_special (hx : x ∈ plainLetters) :
    'ς' ≠ x ∧ 'σ' ≠ x ∧ '\u0307' ≠ x ∧ ¬IsCaseOf 'Σ' x ∧ ¬IsCaseOf 'İ' x := by
  have hword : plainLetters.all fun x => 'ς' ≠ x ∧ 'σ' ≠ x ∧ '\u0307' ≠ x ∧
      ¬IsCaseOf 'Σ' x ∧ ¬IsCaseOf 'İ' x := by decide +kernel
  exact of_decide_eq_true (List.all_eq_true.1 hword x hx)

lemma shiftCase_eq_iff (hx : x ∈ plainLetters) :
    Char.ofNat (shiftCase smallRuns c.toNat) = x ↔ IsCaseOf c x := by
  have hword : plainLetters.all fun x => Char.ofNat (shiftCase smallRuns x.toNat) = x ∧
      Char.ofNat (shiftCase smallRuns x.toUpper.toNat) = x ∧ x.toUpper.toNat + 32 = x.toNat := by
    decide +kernel
  obtain ⟨hsmall, hcapital, htoUpper⟩ := of_decide_eq_true (List.all_eq_true.1 hword x hx)
  have hne := Nat.ne_of_gt (toNat_pos_of_mem hx)
  constructor
  · intro h
    have hshift : shiftCase smallRuns c.toNat = x.toNat := by
      rw [← h] at hne ⊢
      exact (toNat_ofNat_of_ne hne).symm
    rw [shiftCase] at hshift
    cases hfind : smallRuns.findSome? (CaseRun.image? · c.toNat) with
    | none =>
      rw [hfind, Option.getD_none] at hshift
      exact .inl (Char.toNat_inj.1 hshift)
    | some k =>
      rw [hfind, Option.getD_some] at hshift
      obtain ⟨r, hr, himage⟩ := List.exists_of_findSome?_eq_some hfind
      have hn := eq_of_image? hr hx (hshift ▸ himage)
      exact .inr (Char.toNat_inj.1 (by omega))
  · rintro (rfl | rfl)
    · exact hsmall
    · exact hcapital

/-- All small forms are single characters but that of the dotted capital. -/
lemma small_cases (before : List Char) (c : Char) (after : List Char) :
    (c = 'İ' ∧ '\u0307' ∈ small before c after) ∨
      ∃ y, small before c after = [y] ∧ ∀ x ∈ plainLetters, y = x ↔ IsCaseOf c x := by
  rw [small]
  split_ifs with hsigma hfinal hdot
  · subst hsigma
    refine .inr ⟨_, rfl, fun x hx => ?_⟩
    obtain ⟨hfinal, -, -, hcase, -⟩ := not_isCaseOf_special hx
    exact iff_of_false hfinal hcase
  · subst hsigma
    refine .inr ⟨_, rfl, fun x hx => ?_⟩
    obtain ⟨-, hinner, -, hcase, -⟩ := not_isCaseOf_special hx
    exact iff_of_false hinner hcase
  · exact .inl ⟨hdot, by simp⟩
  · exact .inr ⟨_, rfl, fun x hx => shiftCase_eq_iff hx⟩

/-- The small form of some characters is made of plain letters just if they are these letters. -/
lemma lowerChars_eq_iff (before : List Char) {s w : List Char} (hw : w ⊆ plainLetters) :
    lowerChars before s = w ↔ List.Forall₂ IsCaseOf s w := by
  induction s generalizing before w with
  | nil => rw [lowerChars, List.forall₂_nil_left_iff, eq_comm]
  | cons c s ih =>
    rw [lowerChars]
    rcases small_cases before c s with ⟨rfl, hdot⟩ | ⟨y, hy, hletter⟩
    · constructor
      · rintro rfl
        obtain ⟨-, -, hne, -⟩ := not_isCaseOf_special (hw (List.mem_append_left _ hdot))
        exact absurd rfl hne
      · intro h
        cases h with
        | cons hx _ =>
          obtain ⟨-, -, -, -, hcase⟩ := not_isCaseOf_special (hw (List.mem_cons_self ..))
          exact absurd hx hcase
    · rw [hy, List.singleton_append]
      cases w with
      | nil => simp
      | cons x w =>
        obtain ⟨hx, hw⟩ := List.cons_subset.1 hw
        rw [List.cons.injEq, hletter x hx, ih _ hw, List.forall₂_cons]

/-- The small form of a text is a word in plain letters just if the text is that word in any letter case. -/
lemma lower_eq_iff {s w : String} (hw : w.toList.all (· ∈ plainLetters)) :
    lower s = w ↔ IsSpelling s w := by
  have hletters : w.toList ⊆ plainLetters :=
    fun x hx => of_decide_eq_true (List.all_eq_true.1 hw x hx)
  rw [IsSpelling, ← lowerChars_eq_iff [] hletters, lower]
  constructor
  · rintro rfl
    rw [String.toList_ofList]
  · intro h
    rw [h, String.ofList_toList]

end DocGraph.Text
