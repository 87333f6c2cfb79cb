import DocGraph.Fragment.Document
import Mathlib.Data.List.Basic
import Mathlib.Data.List.TakeWhile
import Mathlib.Tactic.Common

/-!
# What dropping the type line leaves

A text is cut into lines at every boundary there is, and put together again with newlines. So the body
below a type line comes out with all its line ends written as newlines, without the newlines it begins
with and without one at its end. A body whose only boundaries are newlines is otherwise as it was.

Main statement: this is what becomes of every body, and a text without a type line stays as it is. A body
with any other boundary, a line separator in a quoted text for one, is changed.
-/

namespace DocGraph

namespace Text

variable {c : Char} {l s t : List Char} {ls : List (List Char)}

/-! ### Lines put together again -/

/-- A text with each of its line ends, of whatever form, written as one newline. -/
def levelled (s : List Char) : List Char :=
  (unifyNewlines s).map fun c => if isBoundary c then '\n' else c

/-- A text without the newline at its end, if there is one. -/
def dropFinalNewline (s : List Char) : List Char :=
  if s.getLast? = some '\n' then s.dropLast else s

/-- A text without the newlines that it begins with and one newline at its end. -/
def stripped (s : List Char) : List Char := dropFinalNewline (s.dropWhile (· = '\n'))

lemma levelled_cons (h : c ≠ '\r') :
    levelled (c :: s) = (if isBoundary c then '\n' else c) :: levelled s := by
  simp [levelled, unifyNewlines, h]

lemma dropFinalNewline_cons (h : c ≠ '\n' ∨ s ≠ []) :
    dropFinalNewline (c :: s) = c :: dropFinalNewline s := by
  cases s with
  | nil => simp [dropFinalNewline, h.resolve_right (by simp)]
  | cons d s =>
    simp only [dropFinalNewline, List.getLast?_cons_cons, List.dropLast_cons_cons]
    split <;> rfl

lemma joinLines_nil_cons (h : ls ≠ []) : joinLines ([] :: ls) = '\n' :: joinLines ls := by
  cases ls with
  | nil => exact absurd rfl h
  | cons l ls => rfl

@[simp] lemma joinLines_consFirst (c : Char) (ls : List (List Char)) :
    joinLines (consFirst c ls) = c :: joinLines ls := by
  match ls with
  | [] => rfl
  | [l] => rfl
  | l :: l' :: ls => rfl

lemma splitLines_eq_nil_iff : splitLines s = [] ↔ s = [] := by
  constructor
  · intro h
    fun_cases splitLines s with
    | case1 => rfl
    | case2 s => simp [splitLines] at h
    | case3 c s hcr hb => simp [splitLines, hb] at h
    | case4 c s hcr hb => cases hs : splitLines s <;> simp [splitLines, hb, hs, consFirst] at h
  · rintro rfl
    rfl

lemma levelled_eq_nil_iff : levelled s = [] ↔ s = [] := by
  rw [levelled, List.map_eq_nil_iff]
  constructor
  · intro h
    fun_cases unifyNewlines s with
    | case1 => rfl
    | case2 s => simp [unifyNewlines] at h
    | case3 c s hcr => simp [unifyNewlines] at h
  · rintro rfl
    rfl

/-- The first boundary is left out if nothing follows it, and is a newline if something does. -/
lemma joinLines_boundary (h : joinLines (splitLines s) = dropFinalNewline (levelled s)) :
    joinLines ([] :: splitLines s) = dropFinalNewline ('\n' :: levelled s) := by
  by_cases hs : s = []
  · simp [hs, splitLines, joinLines, levelled, unifyNewlines, dropFinalNewline]
  · rw [joinLines_nil_cons (mt splitLines_eq_nil_iff.1 hs), h,
      dropFinalNewline_cons (.inr (mt levelled_eq_nil_iff.1 hs))]

/-- Cutting a text into lines and putting them together levels it and loses the last boundary. -/
lemma joinLines_splitLines (s : List Char) :
    joinLines (splitLines s) = dropFinalNewline (levelled s) := by
  fun_induction splitLines s with
  | case1 => rfl
  | case2 s ih => exact joinLines_boundary ih
  | case3 c s hcr hb ih =>
    have hlevel : levelled (c :: s) = '\n' :: levelled s := by
      by_cases hc : c = '\r'
      · subst hc
        rw [levelled, unifyNewlines]
        · rfl
        · simpa using hcr
      · rw [levelled_cons hc, if_pos hb]
    rw [hlevel, joinLines_boundary ih]
  | case4 c s hcr hb ih =>
    have hc : c ≠ '\r' := by
      rintro rfl
      exact hb (by decide)
    have hn : c ≠ '\n' := by
      rintro rfl
      exact hb (by decide)
    rw [joinLines_consFirst, ih, levelled_cons hc, if_neg hb, dropFinalNewline_cons (.inl hn)]

/-- A first line is cut off at the newline after it. -/
lemma splitLines_append (hl : ∀ c ∈ l, isBoundary c = false) :
    splitLines (l ++ '\n' :: s) = l :: splitLines s := by
  induction l with
  | nil => rfl
  | cons c l ih =>
    obtain ⟨hc, hl⟩ := List.forall_mem_cons.1 hl
    rw [List.cons_append, splitLines, ih hl, hc]
    · rfl
    · rintro _ rfl
      exact absurd hc (by decide)

/-- The first line of a text is a beginning of it. -/
lemma prefix_of_splitLines (h : splitLines s = l :: ls) : l <+: s := by
  fun_induction splitLines s generalizing l ls with
  | case1 => simp at h
  | case2 s ih => simp [← (List.cons.inj h).1]
  | case3 c s hcr hb ih => simp [← (List.cons.inj h).1]
  | case4 c s hcr hb ih =>
    cases hs : splitLines s with
    | nil =>
      rw [hs] at h
      rw [← (List.cons.inj h).1]
      exact List.prefix_append [c] s
    | cons l' ls' =>
      rw [hs] at h
      rw [← (List.cons.inj h).1, List.prefix_cons_inj]
      exact ih hs

/-! ### What is taken off -/

lemma dropWhile_dropFinalNewline (s : List Char) :
    (dropFinalNewline s).dropWhile (· = '\n') = stripped s := by
  induction s with
  | nil => rfl
  | cons c s ih =>
    by_cases hc : c = '\n'
    · subst hc
      by_cases hs : s = []
      · subst hs
        rfl
      · rw [dropFinalNewline_cons (.inr hs), stripped, List.dropWhile_cons_of_pos (by simp), ih,
          List.dropWhile_cons_of_pos (by simp)]
        rfl
    · rw [dropFinalNewline_cons (.inl hc), stripped, List.dropWhile_cons_of_neg (by simpa using hc),
        List.dropWhile_cons_of_neg (by simpa using hc), dropFinalNewline_cons (.inl hc)]

lemma mem_dropFinalNewline (h : c ≠ '\n') : c ∈ dropFinalNewline s ↔ c ∈ s := by
  rw [dropFinalNewline]
  split
  · next hlast =>
    conv_rhs => rw [← List.dropLast_append_getLast? '\n' hlast]
    simp [h]
  · rfl

lemma mem_stripped (h : c ≠ '\n') : c ∈ stripped s ↔ c ∈ s := by
  rw [stripped, mem_dropFinalNewline h]
  constructor
  · exact fun hc => (List.dropWhile_sublist _).subset hc
  · intro hc
    rw [← List.takeWhile_append_dropWhile (p := (· = '\n')) (l := s), List.mem_append] at hc
    exact hc.resolve_left fun hc => h (by simpa using List.mem_takeWhile_imp hc)

/-! ### Levelled texts -/

lemma eq_newline_of_mem_levelled (h : c ∈ levelled s) (hb : isBoundary c) : c = '\n' := by
  obtain ⟨d, -, rfl⟩ := List.mem_map.1 h
  by_cases hd : isBoundary d
  · rw [if_pos hd]
  · rw [if_neg hd] at hb
    exact absurd hb hd

lemma unifyNewlines_eq_self (h : '\r' ∉ s) : unifyNewlines s = s := by
  fun_induction unifyNewlines s with
  | case1 => rfl
  | case2 s ih => simp at h
  | case3 c s hcr ih =>
    rw [List.mem_cons, not_or] at h
    rw [if_neg (Ne.symm h.1), ih h.2]

lemma levelled_eq_self (h : ∀ c ∈ s, isBoundary c → c = '\n') : levelled s = s := by
  have hcr : '\r' ∉ s := fun hmem => absurd (h _ hmem (by decide)) (by decide)
  rw [levelled, unifyNewlines_eq_self hcr]
  conv_rhs => rw [← List.map_id s]
  apply List.map_congr_left
  intro c hc
  split
  · next hb => exact (h c hc hb).symm
  · rfl

/-- Levelling shows in what is left of a text exactly if it has a boundary other than the newline. -/
lemma stripped_levelled_eq_iff :
    stripped (levelled s) = stripped s ↔ ∀ c ∈ s, isBoundary c → c = '\n' := by
  constructor
  · intro h c hc hb
    by_contra hn
    have hmem : c ∈ stripped (levelled s) := h ▸ (mem_stripped hn).2 hc
    exact hn (eq_newline_of_mem_levelled ((mem_stripped hn).1 hmem) hb)
  · intro h
    rw [levelled_eq_self h]

end Text

/-! ### Type lines -/

open Text

/-- A single line that begins as type lines do. -/
structure IsTypeLine (l : List Char) : Prop where
  marked : typeLineMark <+: l
  single : ∀ c ∈ l, isBoundary c = false

lemma dropTypeLineChars_of_isTypeLine {l body : List Char} (h : IsTypeLine l) :
    dropTypeLineChars (l ++ '\n' :: body) = stripped (levelled body) := by
  rw [dropTypeLineChars, splitLines_append h.single]
  simp only [List.isPrefixOf_iff_prefix.2 h.marked, if_true]
  rw [joinLines_splitLines, dropWhile_dropFinalNewline]

lemma dropTypeLineChars_of_not_prefix {s : List Char} (h : ¬typeLineMark <+: s) :
    dropTypeLineChars s = s := by
  rw [dropTypeLineChars]
  split
  · rfl
  · next l ls hs =>
    rw [if_neg fun hl => h ((List.isPrefixOf_iff_prefix.1 hl).trans (prefix_of_splitLines hs))]

/-- The body below a type line is left with its line ends as newlines, and without the newlines that it
begins with and one at its end. So it is unchanged otherwise if and only if newlines are its only
boundaries. A text that does not begin as type lines do is left as it is. -/
theorem dropTypeLine_levels_body (text : String) :
    (¬typeLineMark <+: text.toList → dropTypeLine text = text) ∧
      ∀ l body : List Char, IsTypeLine l → text.toList = l ++ '\n' :: body →
        (dropTypeLine text).toList = stripped (levelled body) ∧
          ((dropTypeLine text).toList = stripped body ↔ ∀ c ∈ body, isBoundary c → c = '\n') := by
  constructor
  · intro h
    rw [dropTypeLine, dropTypeLineChars_of_not_prefix h, String.ofList_toList]
  · intro l body hl htext
    have hleft : (dropTypeLine text).toList = stripped (levelled body) := by
      rw [dropTypeLine, htext, dropTypeLineChars_of_isTypeLine hl, String.toList_ofList]
    exact ⟨hleft, by rw [hleft, stripped_levelled_eq_iff]⟩

/-- A type line, an empty line, and a document with a line separator inside a quoted text. -/
def separatedText : String := "### YamlMime:Fragments\n\ntitle: 'One\u2028two'"

lemma isTypeLine_fragments : IsTypeLine "### YamlMime:Fragments".toList where
  marked := by decide
  single := by
    have hsingle : "### YamlMime:Fragments".toList.any isBoundary = false := by decide
    exact fun c hc => Bool.eq_false_iff.2 (List.any_eq_false.1 hsingle c hc)

/-- A line separator inside a quoted text does not survive. -/
theorem not_dropTypeLine_keeps_body :
    ¬∀ (text : String) (l body : List Char), '\r' ∉ text.toList → IsTypeLine l →
      text.toList = l ++ '\n' :: body → (dropTypeLine text).toList = stripped body := by
  intro h
  have hkept := h separatedText _ "\ntitle: 'One\u2028two'".toList (by decide) isTypeLine_fragments
    (by decide)
  revert hkept
  decide

theorem dropTypeLine_levels_body_separated :
    ¬typeLineMark <+: "title: 'One'\n".toList ∧ dropTypeLine "title: 'One'\n" = "title: 'One'\n" ∧
      IsTypeLine "### YamlMime:Fragments".toList ∧
      dropTypeLine separatedText = "title: 'One\ntwo'" := by
  have hmark : ¬typeLineMark <+: "title: 'One'\n".toList := by decide
  obtain ⟨-, hbody⟩ := dropTypeLine_levels_body separatedText
  obtain ⟨hleft, -⟩ := hbody _ "\ntitle: 'One\u2028two'".toList isTypeLine_fragments (by decide)
  refine ⟨hmark, (dropTypeLine_levels_body _).1 hmark, isTypeLine_fragments, ?_⟩
  rw [← String.toList_inj, hleft]
  decide

end DocGraph
