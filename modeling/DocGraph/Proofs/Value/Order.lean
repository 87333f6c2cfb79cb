import DocGraph.Catalog.Basic
import DocGraph.Value.Order
import Mathlib.Data.List.Induction
import Mathlib.Data.List.InsertIdx
import Mathlib.Data.List.Nodup
import Mathlib.Data.List.Perm.Basic
import Mathlib.Data.Set.List
import Mathlib.Data.String.Basic
import Mathlib.Tactic.Common

/-!
# What order leaves

Putting things in order loses none of them and takes none twice, whatever they are, also where there is
no rising order. A set of scalars holds a text if and only if the text was put in.
-/

namespace DocGraph

/-! ### Keys -/

/-- What is put in the order of some keys has its keys in rising order. -/
lemma pairwise_mergeSort_of_key {α β : Type} [LinearOrder β] {le : α → α → Bool} (key : α → β)
    (h : ∀ a b, le a b = true ↔ key a ≤ key b) (xs : List α) :
    (xs.mergeSort le).Pairwise fun a b => key a ≤ key b := by
  refine (List.pairwise_mergeSort ?_ ?_ xs).imp (h _ _).1
  · intro a b c hab hbc
    exact (h a c).2 (((h a b).1 hab).trans ((h b c).1 hbc))
  · intro a b
    simpa only [Bool.or_eq_true, h] using le_total (key a) (key b)

/-- Where all keys are different they rise strictly. -/
lemma pairwise_lt_mergeSort_of_key {α β : Type} [LinearOrder β] {le : α → α → Bool} (key : α → β)
    (h : ∀ a b, le a b = true ↔ key a ≤ key b) {xs : List α} (hkeys : (xs.map key).Nodup) :
    (xs.mergeSort le).Pairwise fun a b => key a < key b := by
  have hle := pairwise_mergeSort_of_key key h xs
  have hne : ((xs.mergeSort le).map key).Nodup := ((List.mergeSort_perm xs le).map key).nodup_iff.2 hkeys
  exact hle.imp₂ (fun _ _ => lt_of_le_of_ne) (List.pairwise_map.1 hne)

/-! ### Insertion -/

section Insertion

variable {α : Type} (isBefore : α → α → Bool)

lemma fallingRun_append (last : α) (xs : List α) :
    (fallingRun isBefore last xs).1 ++ (fallingRun isBefore last xs).2 = xs := by
  induction xs generalizing last with
  | nil => rfl
  | cons x xs ih =>
    rw [fallingRun]
    split
    · exact congrArg (x :: ·) (ih x)
    · rfl

lemma risingRun_append (last : α) (xs : List α) :
    (risingRun isBefore last xs).1 ++ (risingRun isBefore last xs).2 = xs := by
  induction xs generalizing last with
  | nil => rfl
  | cons x xs ih =>
    rw [risingRun]
    split
    · rfl
    · exact congrArg (x :: ·) (ih x)

lemma perm_firstRun (xs : List α) : ((firstRun isBefore xs).1 ++ (firstRun isBefore xs).2).Perm xs := by
  match xs with
  | [] => rfl
  | [x] => rfl
  | x :: y :: xs =>
    rw [firstRun]
    split
    · -- a falling run is turned round
      have hrun := fallingRun_append isBefore y xs
      have hturned := (List.reverse_perm (x :: y :: (fallingRun isBefore y xs).1)).append_right
        (fallingRun isBefore y xs).2
      rwa [List.cons_append, List.cons_append, hrun] at hturned
    · have hrun := risingRun_append isBefore x (y :: xs)
      change (x :: ((risingRun isBefore x (y :: xs)).1 ++ (risingRun isBefore x (y :: xs)).2)).Perm _
      rw [hrun]

/-- Halving stays between the two places. -/
lemma placeFor_le (xs : List α) (x : α) (n : Nat) {low high : Nat} (h : low ≤ high) :
    placeFor isBefore xs x n low high ≤ high := by
  induction n generalizing low high with
  | zero => exact h
  | succ n ih =>
    rw [placeFor]
    split
    · next hlt =>
      have hmiddle : low + (high - low) / 2 < high := by omega
      dsimp only
      split
      · exact Nat.le_trans (ih (Nat.le_add_right ..)) (Nat.le_of_lt hmiddle)
      · exact ih hmiddle
    · exact h

lemma perm_insertAtPlace (xs : List α) (x : α) : (insertAtPlace isBefore xs x).Perm (x :: xs) := by
  apply List.perm_insertIdx
  exact placeFor_le isBefore xs x _ (Nat.zero_le _)

lemma perm_foldl_insertAtPlace (xs ys : List α) :
    (ys.foldl (insertAtPlace isBefore) xs).Perm (xs ++ ys) := by
  induction ys generalizing xs with
  | nil => simp
  | cons y ys ih =>
    have hstep := (perm_insertAtPlace isBefore xs y).append_right ys
    exact (ih _).trans (hstep.trans List.perm_middle.symm)

lemma perm_insertionSorted (xs : List α) : (insertionSorted isBefore xs).Perm xs :=
  (perm_foldl_insertAtPlace isBefore _ _).trans (perm_firstRun isBefore xs)

end Insertion

namespace Scalar

/-- Things that can be put in order are all there afterwards, each as often as before. -/
lemma perm_arranged {α : Type} {scalar : α → Scalar} {xs ys : List α}
    (h : arranged scalar xs = .ok ys) : ys.Perm xs := by
  unfold arranged at h
  split at h
  · rw [← Except.ok.inj h]
  · rw [← Except.ok.inj h]
  · split_ifs at h
    · rw [← Except.ok.inj h]
      exact perm_insertionSorted _ _
    · rw [← Except.ok.inj h]
      exact List.mergeSort_perm _ _

/-! ### Sets -/

/-- Nothing but a text itself is the same as the text. -/
lemma same_text_iff {s : Scalar} {n : String} : s.same (.text n) = true ↔ s = .text n := by
  constructor
  · intro h
    cases s with
    | text m =>
      simp only [same, equals, compare?, compareOfLessAndEq, beq_iff_eq, Option.some.injEq] at h
      split_ifs at h with hlt heq
      rw [heq]
    | _ => simp [same, equals, compare?, number?] at h
  · rintro rfl
    simp [same, equals, compare?, compareOfLessAndEq]

/-- A text is the same as nothing but itself. -/
lemma text_same_iff {s : Scalar} {n : String} : (Scalar.text n).same s = true ↔ s = .text n := by
  cases s with
  | text m => rw [same_text_iff, eq_comm]
  | _ => simp [same, equals, compare?, number?]

lemma text_mem_addTo {xs : List Scalar} {s : Scalar} {n : String} :
    .text n ∈ addTo xs s ↔ .text n ∈ xs ∨ s = .text n := by
  rw [addTo]
  split
  · next h =>
    obtain ⟨t, ht, hsame⟩ := List.any_eq_true.1 h
    constructor
    · exact .inl
    · rintro (hmem | rfl)
      · exact hmem
      · rwa [← same_text_iff.1 hsame]
  · rw [List.mem_append, List.mem_singleton, eq_comm (a := s)]

lemma text_mem_distinct {xs : List Scalar} {n : String} : .text n ∈ distinct xs ↔ .text n ∈ xs := by
  induction xs using List.reverseRecOn with
  | nil => rfl
  | append_singleton xs s ih =>
    rw [distinct, List.foldl_append, List.foldl_cons, List.foldl_nil, ← distinct, text_mem_addTo, ih,
      List.mem_append, List.mem_singleton, eq_comm (a := s)]

lemma foldl_addTo_grows (xs ys : List Scalar) : xs <+: ys.foldl addTo xs := by
  induction ys generalizing xs with
  | nil => exact List.prefix_rfl
  | cons y ys ih =>
    refine List.IsPrefix.trans ?_ (ih (addTo xs y))
    rw [addTo]
    split
    · exact List.prefix_rfl
    · exact List.prefix_append _ _

/-- A set of scalars holds texts only if only texts were put in. -/
lemma forall_text_distinct_iff {xs : List Scalar} :
    (∀ s ∈ distinct xs, ∃ n, s = .text n) ↔ ∀ s ∈ xs, ∃ n, s = .text n := by
  induction xs using List.reverseRecOn with
  | nil => simp [distinct]
  | append_singleton xs s ih =>
    rw [distinct, List.foldl_append, List.foldl_cons, List.foldl_nil, ← distinct, addTo,
      List.forall_mem_append, ← ih, List.forall_mem_singleton]
    split
    · next h =>
      obtain ⟨t, ht, hsame⟩ := List.any_eq_true.1 h
      refine ⟨fun hall => ⟨hall, ?_⟩, And.left⟩
      obtain ⟨n, rfl⟩ := hall t ht
      exact ⟨n, text_same_iff.1 hsame⟩
    · rw [List.forall_mem_append, List.forall_mem_singleton]

/-- A set of scalars holds each value once. -/
lemma pairwise_distinct (xs : List Scalar) : (distinct xs).Pairwise fun a b => ¬a.same b = true := by
  induction xs using List.reverseRecOn with
  | nil => exact List.Pairwise.nil
  | append_singleton xs s ih =>
    rw [distinct, List.foldl_append, List.foldl_cons, List.foldl_nil, ← distinct, addTo]
    split
    · exact ih
    · next h =>
      rw [List.pairwise_append]
      refine ⟨ih, List.pairwise_singleton _ _, fun a ha b hb => ?_⟩
      rw [List.mem_singleton.1 hb]
      exact fun hsame => h (List.any_eq_true.2 ⟨a, ha, hsame⟩)

/-- A set of texts holds texts, all of them different. -/
lemma exists_distinct_map_text (ns : List String) :
    ∃ ms : List String, distinct (ns.map .text) = ms.map .text ∧ ms.Nodup := by
  have hmem : distinct (ns.map .text) ∈ Set.range (List.map text) := by
    rw [Set.range_list_map]
    have htexts : ∀ s ∈ ns.map text, ∃ n, s = .text n := by simp
    exact fun s hs => (forall_text_distinct_iff.2 htexts s hs).imp fun _ h => h.symm
  obtain ⟨ms, hms⟩ := hmem
  refine ⟨ms, hms.symm, ?_⟩
  have hpairs := pairwise_distinct (ns.map .text)
  rw [← hms, List.pairwise_map] at hpairs
  refine hpairs.imp fun {a b} hne => ?_
  rintro rfl
  exact hne (same_text_iff.2 rfl)

/-! ### Kinds -/

lemma text_isComparable_iff {s : Scalar} {n : String} :
    (Scalar.text n).isComparable s = true ↔ ∃ m, s = .text m := by
  cases s <;> simp [isComparable, compare?, number?]

/-- Several scalars of which the first one is a text can be put in order only if all of them are texts. -/
lemma exists_sorted_iff {xs : List Scalar} {s : Scalar} {n : String} :
    (∃ ys, sorted (.text n :: s :: xs) = .ok ys) ↔ ∀ t ∈ s :: xs, ∃ m, t = .text m := by
  have hkinds : ((s :: xs).all fun t => (Scalar.text n).isComparable t) = true ↔
      ∀ t ∈ s :: xs, ∃ m, t = .text m := by
    simp only [List.all_eq_true, text_isComparable_iff]
  rw [← hkinds, sorted, arranged.eq_def]
  simp only [id]
  split_ifs with h <;> simp [h]

lemma sorted_eq_error {xs : List Scalar} {e : Fault} (h : sorted xs = .error e) : e = .wrongType := by
  rw [sorted, arranged.eq_def] at h
  split at h
  · simp at h
  · simp at h
  · split_ifs at h
    exact (Except.error.inj h).symm

/-! ### Texts in order -/

lemma text_atMost_text (m n : String) : (Scalar.text m).atMost (.text n) = decide (m ≤ n) := by
  rw [Bool.eq_iff_iff, decide_eq_true_iff]
  simp only [atMost, compare?, compareOfLessAndEq, bne_iff_ne, ne_eq, Option.some.injEq]
  split_ifs with hlt heq
  · simpa using hlt.le
  · simp [heq]
  · simpa using (lt_of_le_of_ne (not_lt.1 hlt) (Ne.symm heq))

section Arranged

variable {α : Type} {scalar : α → Scalar} {key : α → String} {xs ys : List α}

/-- Things whose scalars are texts are put in the order of the texts. -/
lemma arranged_of_texts (h : ∀ a ∈ xs, scalar a = .text (key a)) :
    arranged scalar xs = .ok (xs.mergeSort fun a b => decide (key a ≤ key b)) := by
  have horder : (xs.mergeSort fun a b => (scalar a).atMost (scalar b)) =
      xs.mergeSort fun a b => decide (key a ≤ key b) := by
    have hmap := List.map_mergeSort (f := id) (l := xs)
      (r := fun a b => (scalar a).atMost (scalar b)) (s := fun a b => decide (key a ≤ key b)) <| by
        intro a ha b hb
        rw [h a ha, h b hb, text_atMost_text, id, id]
    simpa using hmap
  rw [← horder]
  match xs with
  | [] => simp [arranged]
  | [a] => simp [arranged]
  | a :: b :: xs =>
    have hkinds : (b :: xs).all fun c => (scalar a).isComparable (scalar c) := by
      rw [List.all_eq_true]
      intro c hc
      rw [h a (List.mem_cons_self ..), text_isComparable_iff]
      exact ⟨_, h c (List.mem_cons_of_mem _ hc)⟩
    have hnumbers : ¬(a :: b :: xs).any fun c => (scalar c).isNan := by
      rw [List.any_eq_true]
      rintro ⟨c, hc, hnan⟩
      simp [h c hc, isNan, number?] at hnan
    rw [arranged.eq_def]
    simp only
    rw [if_pos hkinds, if_neg hnumbers]

/-- Texts are put in their own order. -/
lemma sorted_map_text (ns : List String) :
    sorted (ns.map .text) = .ok ((Catalog.inOrder ns).map .text) := by
  have htexts : ∀ s ∈ ns.map text, id s = .text (s.text?.getD "") := by
    intro s hs
    obtain ⟨n, -, rfl⟩ := List.mem_map.1 hs
    rfl
  rw [sorted, arranged_of_texts htexts, Catalog.inOrder, List.map_mergeSort]
  intro m _ n _
  rfl

end Arranged

end Scalar

/-- Texts that are all different come to stand in strictly rising order. -/
lemma Catalog.pairwise_inOrder {ns : List String} (h : ns.Nodup) : (inOrder ns).Pairwise (· < ·) :=
  pairwise_lt_mergeSort_of_key id (fun _ _ => decide_eq_true_iff) (by rwa [List.map_id])

end DocGraph
