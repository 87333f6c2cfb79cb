import DocGraph.Proofs.Text.Stack
import DocGraph.Proofs.Value.Fields
import DocGraph.Proofs.Value.Inspect

/-!
# Leaves

The leaves of a value are its parts that are no lists, in the order in which they are written, whatever
lists are around them. The documentation text of a value depends on its leaves alone: it is made of the
texts of the leaves that are not empty, each beginning on a line of its own. It neither begins nor ends with
a blank, so making a text of it once more changes nothing.

A value has no text if a list comes again inside itself by way of lists alone, if a whole number in a leaf
has more digits than are written, or if there is no room for the calls: three for each list around a leaf,
and one for each list and each mapping inside a leaf that is a mapping.
-/

namespace DocGraph

/-! ### Scalars -/

namespace Scalar

variable {s : Scalar} {t : String} {room room' : Nat} {e : Fault}

/-- The calls for the documentation text of a scalar. -/
def textCalls : Scalar → Nat
  | .null | .text _ => 0
  | s => s.shownCalls

/-- The bare text of a scalar, none for null. -/
def bare : Scalar → String
  | .null => ""
  | s => s.shown

lemma asTextWithin_eq_deeper (room : Nat) (s : Scalar) :
    s.asTextWithin room = deeper s.textCalls room fun _ =>
      if s.isWritable then .ok (Text.trim s.bare) else .error (.tooManyDigits none) := by
  cases s with
  | null =>
    rw [bare, Text.trim_eq_self_iff.2 Text.isTrimmed_empty]
    rfl
  | _ => rfl

lemma exists_asTextWithin_iff :
    (∃ t, s.asTextWithin room = .ok t) ↔ s.textCalls ≤ room ∧ s.isWritable = true := by
  rw [asTextWithin_eq_deeper]
  exact exists_deeper_ite_iff

lemma asTextWithin_eq_error (h : s.asTextWithin room = .error e) :
    e = .endless ∨ e = .tooManyDigits none := by
  rw [asTextWithin_eq_deeper] at h
  exact deeper_ite_eq_error h

lemma isTrimmed_of_asTextWithin (h : s.asTextWithin room = .ok t) : Text.IsTrimmed t := by
  rw [asTextWithin_eq_deeper, deeper_eq_ok] at h
  obtain ⟨-, h⟩ := h
  split at h
  · obtain rfl := Except.ok.inj h
    exact Text.isTrimmed_trim _
  · cases h

lemma asTextWithin_eq (h : s.textCalls ≤ room) (h' : s.textCalls ≤ room') :
    s.asTextWithin room = s.asTextWithin room' := by
  rw [asTextWithin_eq_deeper, asTextWithin_eq_deeper]
  exact deeper_const_eq h h' _

end Scalar

namespace Value

variable {v w l : Value} {s : Scalar} {t : String} {label room room' k : Nat} {around : List (Nat × Value)}
  {xs : List Value} {e : Fault}

/-! ### Mappings -/

lemma isMap_fill (h : v.isMap) : (fill label w v).isMap := by
  induction v using induction_parts with
  | scalar s => simp [isMap] at h
  | list xs ih => simp [isMap] at h
  | map ps ih => simp [fill, isMap]
  | loop m body ih =>
    rw [fill]
    split
    · exact h
    · exact ih h
  | again m => simp [isMap] at h

lemma isMap_closed (h : v.isMap) : (closed around v).isMap := by
  induction around generalizing v with
  | nil => exact h
  | cons p around ih => exact ih (isMap_fill h)

/-- A mapping has no items of a list, also if it contains itself. -/
lemma opened_ne_list_of_isMap (h : v.isMap) (xs : List Value) : v.opened ≠ .list xs := by
  cases v with
  | loop label body =>
    intro hopened
    have hmap : (opened (.loop label body)).isMap := isMap_fill (v := body) h
    rw [hopened] at hmap
    simp [isMap] at hmap
  | _ => simp_all [isMap]

/-! ### Leaves -/

mutual

/-- The parts of a value that are no lists, from the first to the last. Loops around it have taken the places
of their labels, except where the label of a list comes up among its own items. -/
def leavesIn (around : List (Nat × Value)) : Value → List Value
  | .scalar s => [.scalar s]
  | .list xs => leavesOf around xs
  | .map ps => [closed around (.map ps)]
  | .loop label body =>
    if body.isMap then [closed around (.loop label body)]
    else leavesIn ((label, closed around (.loop label body)) :: around) body
  | .again label => [.again label]

/-- The leaves of some values, one value after the other. -/
def leavesOf (around : List (Nat × Value)) : List Value → List Value
  | [] => []
  | v :: vs => leavesIn around v ++ leavesOf around vs

end

/-- The parts of a value that are no lists, from the first to the last. -/
def leaves (v : Value) : List Value := leavesIn [] v

lemma leavesOf_eq_flatMap (around : List (Nat × Value)) (xs : List Value) :
    leavesOf around xs = xs.flatMap (leavesIn around) := by
  induction xs with
  | nil => rfl
  | cons x xs ih => rw [leavesOf, ih, List.flatMap_cons]

/-! ### Mappings as leaves -/

lemma leavesIn_of_isMap (h : v.isMap) : leavesIn around v = [closed around v] := by
  cases v with
  | map ps => rfl
  | loop label body => exact if_pos h
  | _ => simp [isMap] at h

/-- The documentation text of a mapping is what it looks like in brackets, without blanks at the ends. -/
lemma asTextIn_of_isMap (h : v.isMap) (room : Nat) :
    asTextIn around room v =
      deeper 1 room fun room => Text.trim <$> (closed around v).inspectWithin room := by
  cases v with
  | map ps => rw [asTextIn]; rfl
  | loop label body =>
    have hbody : body.isMap = true := h
    rw [asTextIn, if_pos hbody]
    rfl
  | _ => simp [isMap] at h

/-- What holds of leaves, and of lists if it holds of their items, holds of all values. -/
@[elab_as_elim]
lemma induction_leaves {motive : List (Nat × Value) → Value → Prop}
    (scalar : ∀ around s, motive around (.scalar s))
    (list : ∀ around xs, (∀ x ∈ xs, motive around x) → motive around (.list xs))
    (map : ∀ around v, v.isMap → motive around v)
    (loop : ∀ around label body, body.isMap = false →
      motive ((label, closed around (.loop label body)) :: around) body → motive around (.loop label body))
    (again : ∀ around label, motive around (.again label)) (around : List (Nat × Value)) (v : Value) :
    motive around v := by
  induction v using induction_parts generalizing around with
  | scalar s => exact scalar around s
  | list xs ih => exact list around xs fun x hx => ih x hx around
  | map ps => exact map around _ rfl
  | loop label body ih =>
    cases hbody : body.isMap with
    | true => exact map around _ hbody
    | false => exact loop around label body hbody (ih _)
  | again label => exact again around label

lemma leavesIn_loop (hbody : w.isMap = false) :
    leavesIn around (.loop label w) = leavesIn ((label, closed around (.loop label w)) :: around) w := by
  simp [leavesIn, hbody]

lemma asTextIn_loop (hbody : w.isMap = false) (room : Nat) :
    asTextIn around room (.loop label w) =
      asTextIn ((label, closed around (.loop label w)) :: around) room w := by
  simp [asTextIn, hbody]

/-- A leaf is a scalar, a mapping, or the place where a list comes again inside itself. -/
lemma leaf_cases (h : l ∈ leavesIn around v) :
    (∃ s, l = .scalar s) ∨ l.isMap ∨ ∃ label, l = .again label := by
  induction around, v using induction_leaves with
  | scalar around s =>
    obtain rfl := List.mem_singleton.1 h
    exact .inl ⟨s, rfl⟩
  | list around xs ih =>
    rw [leavesIn, leavesOf_eq_flatMap] at h
    obtain ⟨x, hx, h⟩ := List.mem_flatMap.1 h
    exact ih x hx h
  | map around v hmap =>
    rw [leavesIn_of_isMap hmap, List.mem_singleton] at h
    subst h
    exact .inr (.inl (isMap_closed hmap))
  | loop around label body hbody ih =>
    rw [leavesIn_loop hbody] at h
    exact ih h
  | again around label =>
    obtain rfl := List.mem_singleton.1 h
    exact .inr (.inr ⟨label, rfl⟩)

lemma opened_ne_list_of_mem_leavesIn (h : l ∈ leavesIn around v) (xs : List Value) : l.opened ≠ .list xs := by
  rcases leaf_cases h with ⟨s, rfl⟩ | hmap | ⟨label, rfl⟩
  · simp
  · exact opened_ne_list_of_isMap hmap xs
  · simp [opened]

/-! ### Calls -/

mutual

/-- The calls for the documentation text of a value inside some lists that are loops. -/
def textCallsIn (around : List (Nat × Value)) : Value → Nat
  | .scalar s => 1 + s.textCalls
  | .list xs => 3 + textCallsOf around xs
  | .map ps => 1 + (closed around (.map ps)).inspectCalls
  | .loop label body =>
    if body.isMap then 1 + (closed around (.loop label body)).inspectCalls
    else textCallsIn ((label, closed around (.loop label body)) :: around) body
  | .again _ => 1

/-- The calls for the item that takes most of them. -/
def textCallsOf (around : List (Nat × Value)) : List Value → Nat
  | [] => 0
  | v :: vs => max (textCallsIn around v) (textCallsOf around vs)

end

/-- The calls for the documentation text of a value: three for each list, as many for a mapping as it takes
to write it in brackets and one more, the most that a part takes for what is made of parts. -/
def textCalls (v : Value) : Nat := textCallsIn [] v

lemma textCallsOf_le_iff : textCallsOf around xs ≤ k ↔ ∀ x ∈ xs, textCallsIn around x ≤ k := by
  induction xs with
  | nil => simp [textCallsOf]
  | cons x xs ih => rw [textCallsOf, Nat.max_le, ih, List.forall_mem_cons]

lemma textCallsIn_scalar_le_iff :
    textCallsIn around (.scalar s) ≤ room ↔ 1 ≤ room ∧ s.textCalls ≤ room - 1 := by
  rw [textCallsIn]
  omega

lemma textCallsIn_list_le_iff :
    textCallsIn around (.list xs) ≤ room ↔ 3 ≤ room ∧ ∀ x ∈ xs, textCallsIn around x ≤ room - 3 := by
  rw [textCallsIn, ← textCallsOf_le_iff]
  omega

lemma textCallsIn_le_iff_of_isMap (h : v.isMap) :
    textCallsIn around v ≤ room ↔ 1 ≤ room ∧ (closed around v).inspectCalls ≤ room - 1 := by
  have hcalls : textCallsIn around v = 1 + (closed around v).inspectCalls := by
    cases v with
    | map ps => rw [textCallsIn]
    | loop label body => exact if_pos h
    | _ => simp [isMap] at h
  omega

lemma textCallsIn_loop (hbody : w.isMap = false) :
    textCallsIn around (.loop label w) =
      textCallsIn ((label, closed around (.loop label w)) :: around) w := by
  simp [textCallsIn, hbody]

lemma one_le_textCallsIn (around : List (Nat × Value)) (v : Value) : 1 ≤ textCallsIn around v := by
  induction around, v using induction_leaves with
  | scalar around s => exact (textCallsIn_scalar_le_iff.1 le_rfl).1
  | list around xs => exact (by decide : 1 ≤ 3).trans (textCallsIn_list_le_iff.1 le_rfl).1
  | map around v hmap => exact ((textCallsIn_le_iff_of_isMap hmap).1 le_rfl).1
  | loop around label body hbody ih => rwa [textCallsIn_loop hbody]
  | again around label => rw [textCallsIn]

/-! ### Texts of leaves -/

/-- The text of a list is made of those of its items. -/
lemma asTextIn_list (around : List (Nat × Value)) (room : Nat) (xs : List Value) :
    asTextIn around room (.list xs) = deeper 3 room fun room => Text.stackOf (asTextIn around room) xs := by
  have hitems : ∀ room,
      asTextsIn around room xs = List.filter (· ≠ "") <$> xs.mapM (asTextIn around room) := by
    intro room
    induction xs with
    | nil => rfl
    | cons x xs ih =>
      rw [asTextsIn, ih, List.mapM_cons]
      cases asTextIn around room x with
      | error e => rfl
      | ok t =>
        cases xs.mapM (asTextIn around room) with
        | error e => rfl
        | ok ts =>
          change Except.ok (if t.isEmpty then ts.filter (· ≠ "") else t :: ts.filter (· ≠ "")) =
            Except.ok ((t :: ts).filter (· ≠ ""))
          by_cases h : t = "" <;> simp [h]
  rw [asTextIn]
  congr 1
  funext room
  rw [hitems, Text.stackOf]
  cases xs.mapM (asTextIn around room) <;> rfl

/-- The text of a value is made of those of its leaves. -/
lemma asTextIn_eq_stackOf (hcalls : textCallsIn around v ≤ room) (hroom : room ≤ room') :
    asTextIn around room v = Text.stackOf (asTextWithin room') (leavesIn around v) := by
  induction around, v using induction_leaves generalizing room with
  | scalar around s =>
    rw [textCallsIn_scalar_le_iff] at hcalls
    have hroom' : 1 ≤ room' := by omega
    rw [leavesIn, Text.stackOf_singleton, asTextWithin, asTextIn, asTextIn, deeper_of_le hcalls.1,
      deeper_of_le hroom']
    exact Scalar.asTextWithin_eq hcalls.2 (by omega)
  | list around xs ih =>
    rw [textCallsIn_list_le_iff] at hcalls
    rw [asTextIn_list, deeper_of_le hcalls.1, leavesIn, leavesOf_eq_flatMap]
    exact Text.stackOf_flatMap fun x hx => ih x hx (hcalls.2 x hx) (by omega)
  | map around v hmap =>
    rw [textCallsIn_le_iff_of_isMap hmap] at hcalls
    have hroom' : 1 ≤ room' := by omega
    rw [leavesIn_of_isMap hmap, Text.stackOf_singleton, asTextWithin, asTextIn_of_isMap hmap,
      asTextIn_of_isMap (isMap_closed hmap), deeper_of_le hcalls.1, deeper_of_le hroom']
    exact congrArg _ (inspectWithin_eq hcalls.2 (hcalls.2.trans (by omega)))
  | loop around label body hbody ih =>
    rw [textCallsIn_loop hbody] at hcalls
    rw [leavesIn_loop hbody, asTextIn_loop hbody]
    exact ih hcalls hroom
  | again around label => rw [leavesIn, Text.stackOf_singleton, asTextIn, asTextWithin, asTextIn]

lemma isTrimmed_of_asTextIn (h : asTextIn around room v = .ok t) : Text.IsTrimmed t := by
  induction around, v using induction_leaves generalizing room t with
  | scalar around s => exact Scalar.isTrimmed_of_asTextWithin (deeper_eq_ok.1 h).2
  | list around xs ih =>
    rw [asTextIn_list, deeper_eq_ok] at h
    exact Text.isTrimmed_stackOf (fun x hx u hu => ih x hx hu) h.2
  | map around v hmap =>
    rw [asTextIn_of_isMap hmap, deeper_eq_ok, map_eq_ok] at h
    obtain ⟨-, u, -, rfl⟩ := h
    exact Text.isTrimmed_trim u
  | loop around label body hbody ih => exact ih (asTextIn_loop hbody room ▸ h)
  | again around label => cases h

/-! ### Values without a text -/

/-- A leaf can have a text: it is not the place where a list comes again inside itself, and no whole number
in it has too many digits. -/
def IsTellable (l : Value) : Prop :=
  (∀ label, l ≠ .again label) ∧ ∀ n, l.Shows n → n.natAbs < 10 ^ Number.digitLimit

lemma isTellable_of_isMap_iff (h : v.isMap) :
    v.IsTellable ↔ ∀ n, v.Shows n → n.natAbs < 10 ^ Number.digitLimit := by
  refine and_iff_right fun label hlabel => ?_
  rw [hlabel] at h
  cases h

/-- A value has a text if there is room for it, unless a leaf can have none. -/
lemma exists_asTextIn_iff :
    (∃ t, asTextIn around room v = .ok t) ↔
      textCallsIn around v ≤ room ∧ ∀ l ∈ leavesIn around v, l.IsTellable := by
  induction around, v using induction_leaves generalizing room with
  | scalar around s =>
    have hleaf : (Value.scalar s).IsTellable ↔ s.isWritable = true :=
      (and_iff_right (by simp)).trans IsShortIn.scalar_iff
    rw [textCallsIn_scalar_le_iff, leavesIn, List.forall_mem_singleton, hleaf, and_assoc,
      ← Scalar.exists_asTextWithin_iff]
    simp [asTextIn]
  | list around xs ih =>
    have hleaves : (∀ l ∈ leavesIn around (.list xs), l.IsTellable) ↔
        ∀ x ∈ xs, ∀ l ∈ leavesIn around x, l.IsTellable := by
      rw [leavesIn, leavesOf_eq_flatMap, List.forall_mem_flatMap]
    rw [textCallsIn_list_le_iff, hleaves, and_assoc, ← forall₂_and, asTextIn_list]
    simp only [deeper_eq_ok, exists_and_left, Text.exists_stackOf_iff]
    exact and_congr_right fun _ => forall₂_congr fun x hx => ih x hx
  | map around v hmap =>
    rw [textCallsIn_le_iff_of_isMap hmap, leavesIn_of_isMap hmap, List.forall_mem_singleton,
      isTellable_of_isMap_iff (isMap_closed hmap), and_assoc, ← exists_inspectWithin_iff,
      asTextIn_of_isMap hmap]
    simp
  | loop around label body hbody ih =>
    rw [textCallsIn_loop hbody, leavesIn_loop hbody, asTextIn_loop hbody]
    exact ih
  | again around label =>
    refine iff_of_false ?_ fun h => (h.2 _ (List.mem_singleton_self _)).1 label rfl
    rintro ⟨t, ht⟩
    cases ht

/-- A value without a text is too deep or endless, or has too long a number. -/
lemma asTextIn_eq_error (h : asTextIn around room v = .error e) : e = .endless ∨ e = .tooManyDigits none := by
  induction around, v using induction_leaves generalizing room with
  | scalar around s =>
    rcases deeper_eq_error h with h | h
    · exact .inl h
    · exact Scalar.asTextWithin_eq_error h
  | list around xs ih =>
    rw [asTextIn_list] at h
    rcases deeper_eq_error h with h | h
    · exact .inl h
    · rw [Text.stackOf, map_eq_error] at h
      obtain ⟨x, hx, h⟩ := exists_of_mapM_eq_error h
      exact ih x hx h
  | map around v hmap =>
    rw [asTextIn_of_isMap hmap] at h
    rcases deeper_eq_error h with h | h
    · exact .inl h
    · rw [map_eq_error] at h
      exact inspectIn_eq_error h
  | loop around label body hbody ih => exact ih (asTextIn_loop hbody room ▸ h)
  | again around label => exact .inl (Except.error.inj h).symm

/-- The documentation text of a value is made of those of its leaves, which are no lists: the texts that are
not empty, from the first to the last, each beginning on a line of its own. There is one if and only if there
is room for it, no list comes again inside itself by way of lists alone, and no whole number in a leaf has too
many digits. It neither begins nor ends with a blank, and its own documentation text is the text itself. -/
theorem asText_flattens_leaves (room : Nat) (v : Value) :
    ((∃ t, v.asTextWithin room = .ok t) ↔
      v.textCalls ≤ room ∧
        ∀ l ∈ v.leaves,
          (∀ label, l ≠ .again label) ∧ ∀ n, l.Shows n → n.natAbs < 10 ^ Number.digitLimit) ∧
    (∀ e, v.asTextWithin room = .error e → e = .endless ∨ e = .tooManyDigits none) ∧
    (∀ t, v.asTextWithin room = .ok t → Text.IsTrimmed t ∧ (Value.text t).asTextWithin room = .ok t) ∧
    (∀ l ∈ v.leaves, ∀ xs, l.opened ≠ .list xs) ∧
    (v.textCalls ≤ room → v.asTextWithin room = do
      let texts ← v.leaves.mapM (asTextWithin room)
      return "\n".intercalate (texts.filter (· ≠ ""))) := by
  refine ⟨exists_asTextIn_iff, fun e => asTextIn_eq_error, fun t ht => ?_,
    fun l hl => opened_ne_list_of_mem_leavesIn hl, fun hcalls => ?_⟩
  · have htrimmed := isTrimmed_of_asTextIn ht
    refine ⟨htrimmed, ?_⟩
    have hroom : 1 ≤ room := (one_le_textCallsIn ..).trans (exists_asTextIn_iff.1 ⟨t, ht⟩).1
    rw [asTextWithin, asTextIn, deeper_of_le hroom, Scalar.asTextWithin, Text.trim_eq_self_iff.2 htrimmed]
  · rw [asTextWithin, asTextIn_eq_stackOf hcalls le_rfl]
    rfl

example : (Value.list [.text " a", .list [.null, .list [.text "\n"], .text "b "]]).asText = .ok "a\nb" := rfl

example :
    (Value.list [.list [.text "a"]]).textCalls = 7 ∧
      (Value.list [.list [.text "a"]]).asTextWithin 6 = .error .endless := ⟨rfl, rfl⟩

/-- A list need not have a text: none is made of a whole number with too many digits. -/
theorem not_exists_asText_of_list :
    ¬∀ xs : List Value, ∃ t, (Value.list xs).asText = .ok t ∧ Text.IsTrimmed t ∧
      (Value.text t).asText = .ok t := by
  intro h
  obtain ⟨t, ht, -⟩ := h [.int (10 ^ Number.digitLimit)]
  have hleaf := (exists_asTextIn_iff.1 ⟨t, ht⟩).2 (.int (10 ^ Number.digitLimit)) (List.mem_singleton_self _)
  have hlimit := hleaf.2 _ .number
  generalize Number.digitLimit = limit at hlimit
  rw [Int.natAbs_pow] at hlimit
  exact lt_irrefl _ hlimit

end Value

end DocGraph
