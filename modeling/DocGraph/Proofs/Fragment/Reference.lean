import DocGraph.Fragment.Entry
import DocGraph.Proofs.Text.Blank
import DocGraph.Proofs.Value.Fields

/-!
# References that are read as targets

The text of a reference to a member names the class, the kind and the name. Read as a target it is cut at
the first number sign and then at the first hyphen. No kind has a hyphen in its word, so neither sign in the
name of the member is taken for a separator, nor is the name for another kind.

Main statement: what is read is the class, the kind and the name of the reference, as they are written when
they are given one by one.
-/

namespace DocGraph

open Text Value

variable {c : Char} {s t : List Char} {r : MemberRef} {ps : List (Scalar × Value)}

/-! ### Cutting -/

/-- Characters are cut at the mark that follows the ones without it. -/
lemma cutAt_append (h : c ∉ s) (t : List Char) : cutAt c (s ++ c :: t) = (s, t) := by
  have hne : ∀ x ∈ s, decide (x ≠ c) = true := by
    intro x hx
    rw [decide_eq_true_eq]
    rintro rfl
    exact h hx
  rw [cutAt, List.takeWhile_append_of_pos hne, List.dropWhile_append_of_pos hne]
  simp

lemma MemberKind.hyphen_not_mem (k : MemberKind) : '-' ∉ k.name.toList := by cases k <;> decide

lemma MemberKind.trim_name (k : MemberKind) : trim k.name = k.name := by
  rw [trim_eq_self_iff]
  cases k <;> decide

lemma nonempty?_toList {n : String} (h : n ≠ "") : nonempty? n.toList = some n := by
  simp [nonempty?, h]

/-! ### References -/

/-- A reference whose text can be taken apart again. -/
structure MemberRef.IsReadable (r : MemberRef) : Prop where
  cls_ne : r.cls ≠ ""
  cls_unmarked : '#' ∉ r.cls.toList
  cls_begins : BeginsBare r.cls.toList
  name_ne : r.key.name ≠ ""
  name_ends : EndsBare r.key.name.toList

/-- The target that a reference names. -/
def MemberRef.target (r : MemberRef) : DocTarget := ⟨some r.cls, some r.key.name, some r.key.kind.name⟩

lemma MemberRef.toList_text (r : MemberRef) :
    r.text.toList = r.cls.toList ++ '#' :: (r.key.kind.name.toList ++ '-' :: r.key.name.toList) := by
  simp [MemberRef.text]

/-- There is nothing to trim around a reference. -/
lemma MemberRef.IsReadable.trimChars_text (h : r.IsReadable) : trimChars r.text.toList = r.text.toList := by
  have hcls : r.cls.toList ≠ [] := by simpa using h.cls_ne
  have hname : r.key.name.toList ≠ [] := by simpa using h.name_ne
  rw [trimChars_eq_self_iff, r.toList_text]
  constructor
  · exact (beginsBare_append hcls).2 h.cls_begins
  · rw [endsBare_append (by simp), ← List.singleton_append, endsBare_append (by simp),
      endsBare_append (by simp), ← List.singleton_append, endsBare_append hname]
    exact h.name_ends

namespace DocTarget

/-- A kind that is written before a name is read as the kind, whatever the name. -/
lemma memberPart_kind (k : MemberKind) (s : List Char) :
    memberPart (k.name.toList ++ '-' :: s) = (some k.name, nonempty? s) := by
  simp [memberPart, cutAt_append k.hyphen_not_mem]

lemma ofText_text (h : r.IsReadable) : ofText r.text = r.target := by
  rw [ofText, h.trimChars_text, r.toList_text, cutAt_append h.cls_unmarked]
  simp only [memberPart_kind, nonempty?_toList h.cls_ne, nonempty?_toList h.name_ne]
  rfl

/-! ### The two forms of a target -/

/-- A mapping with the parts of a reference is read as the target that the reference names. -/
lemma ofValue_of_fields (hcls : trim r.cls = r.cls) (hname : trim r.key.name = r.key.name)
    (h : r.IsReadable) (hc : fieldOf ps "cls" = .text r.cls) (hm : fieldOf ps "member" = .text r.key.name)
    (hk : fieldOf ps "kind" = .text r.key.kind.name) : ofValue (.map ps) = .ok (some r.target) := by
  have hkind : r.key.kind.name ≠ "" := by cases r.key.kind <;> decide
  have hparts : textOf? ps "cls" = .ok (some r.cls) ∧ textOf? ps "member" = .ok (some r.key.name) ∧
      textOf? ps "kind" = .ok (some r.key.kind.name) := by
    have hword := r.key.kind.trim_name
    refine ⟨?_, ?_, ?_⟩
    · rw [textOf?_of_text hc (hcls.symm ▸ h.cls_ne), hcls]
    · rw [textOf?_of_text hm (hname.symm ▸ h.name_ne), hname]
    · rw [textOf?_of_text hk (hword.symm ▸ hkind), hword]
  simp only [ofValue, bind_eq_ok, pure_eq_ok, pairs?_eq_ok_iff]
  exact ⟨ps, rfl, _, hparts.1, _, hparts.2.1, _, hparts.2.2, rfl⟩

/-- The text of a reference is read as the class, the name and the kind of which it is made. If these have
no blanks at their other ends either, a mapping that holds them one by one is read as the same target. -/
theorem reads_reference_back (h : r.IsReadable) :
    ofText r.text = ⟨some r.cls, some r.key.name, some r.key.kind.name⟩ ∧
      (EndsBare r.cls.toList → BeginsBare r.key.name.toList →
        ∀ ps, fieldOf ps "cls" = .text r.cls → fieldOf ps "member" = .text r.key.name →
          fieldOf ps "kind" = .text r.key.kind.name →
          ofValue (.map ps) = .ok (some r.target) ∧ ofValue (.text r.text) = .ok (some r.target)) := by
  refine ⟨ofText_text h, fun hends hbegins ps hc hm hk => ⟨?_, ?_⟩⟩
  · exact ofValue_of_fields (trim_eq_self_iff.2 ⟨h.cls_begins, hends⟩)
      (trim_eq_self_iff.2 ⟨hbegins, h.name_ends⟩) h hc hm hk
  · rw [ofValue, ofText_text h]

/-- A reference to a member whose name has both signs in it and begins like another kind. -/
def knottedRef : MemberRef := ⟨"Ext.Base", .cssMixin, "event-#show-all"⟩

lemma isReadable_knottedRef : knottedRef.IsReadable where
  cls_ne := by decide
  cls_unmarked := by decide
  cls_begins := by decide
  name_ne := by decide
  name_ends := by decide

/-- The parts of that reference. -/
def knottedPairs : List (Scalar × Value) :=
  [(.text "kind", .text "css_mixin"), (.text "member", .text "event-#show-all"),
    (.text "cls", .text "Ext.Base")]

theorem reads_reference_back_knotted :
    ofText "Ext.Base#css_mixin-event-#show-all" =
        ⟨some "Ext.Base", some "event-#show-all", some "css_mixin"⟩ ∧
      ofValue (.map knottedPairs) = ofValue (.text "Ext.Base#css_mixin-event-#show-all") := by
  obtain ⟨htext, hforms⟩ := reads_reference_back isReadable_knottedRef
  obtain ⟨hmap, hshort⟩ := hforms (by decide) (by decide) knottedPairs rfl rfl rfl
  exact ⟨htext, hmap.trans hshort.symm⟩

end DocTarget

end DocGraph
