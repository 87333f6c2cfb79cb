import DocGraph.Proofs.Outcome
import DocGraph.Proofs.Text.Blank

/-!
# Texts one over the other

Texts are put one over the other, each on lines of its own, and empty ones take no line. How they are grouped
on the way makes no difference, and what is put together of texts without blanks at their ends has none
either.
-/

namespace DocGraph.Text

variable {α β ε : Type} {s t : String} {ts : List String}

/-- A text over another one, on lines of their own. An empty text takes no line. -/
def atop (s t : String) : String := if s = "" then t else if t = "" then s else s ++ "\n" ++ t

lemma atop_assoc (s t u : String) : atop (atop s t) u = atop s (atop t u) := by
  unfold atop
  split_ifs <;> simp_all [String.append_assoc]

/-- Some texts one over the other, without the empty ones. -/
def stacked (ts : List String) : String := "\n".intercalate (ts.filter (· ≠ ""))

@[simp] lemma stacked_nil : stacked [] = "" := rfl

lemma intercalate_eq_empty_iff (h : ∀ t ∈ ts, t ≠ "") : "\n".intercalate ts = "" ↔ ts = [] := by
  match ts with
  | [] => simp
  | [t] => simpa using h t
  | t :: u :: ts => simp [String.intercalate_cons_cons]

lemma stacked_cons (t : String) (ts : List String) : stacked (t :: ts) = atop t (stacked ts) := by
  have hne : ∀ u ∈ ts.filter (· ≠ ""), u ≠ "" := by
    intro u hu
    simpa using (List.mem_filter.1 hu).2
  rw [atop, stacked, stacked]
  split_ifs with ht hrest
  · simp [ht]
  · rw [intercalate_eq_empty_iff hne] at hrest
    rw [List.filter_cons_of_pos (by simpa using ht), hrest, String.intercalate_singleton]
  · rw [intercalate_eq_empty_iff hne] at hrest
    rw [List.filter_cons_of_pos (by simpa using ht), String.intercalate_cons_of_ne_nil hrest]

lemma stacked_append (ts us : List String) : stacked (ts ++ us) = atop (stacked ts) (stacked us) := by
  induction ts with
  | nil => simp [atop]
  | cons t ts ih => rw [List.cons_append, stacked_cons, stacked_cons, ih, atop_assoc]

@[simp] lemma stacked_singleton (t : String) : stacked [t] = t := by
  rw [stacked_cons, stacked_nil, atop]
  split_ifs with h <;> simp_all

lemma IsTrimmed.atop (hs : IsTrimmed s) (ht : IsTrimmed t) : IsTrimmed (atop s t) := by
  unfold Text.atop
  split_ifs with hs' ht'
  · exact ht
  · exact hs
  · have hsl : s.toList ≠ [] := by simpa using hs'
    have htl : t.toList ≠ [] := by simpa using ht'
    rw [IsTrimmed, String.toList_append, String.toList_append, List.append_assoc, beginsBare_append hsl,
      ← List.append_assoc, endsBare_append htl]
    exact ⟨hs.1, ht.2⟩

/-! ### Texts that may be missing -/

/-- The texts of some things one over the other, if all of them have one. -/
def stackOf (f : α → Except ε String) (xs : List α) : Except ε String := stacked <$> xs.mapM f

lemma stackOf_append (f : α → Except ε String) (xs ys : List α) :
    stackOf f (xs ++ ys) = do return atop (← stackOf f xs) (← stackOf f ys) := by
  rw [stackOf, stackOf, stackOf, List.mapM_append]
  cases xs.mapM f with
  | error e => rfl
  | ok ts =>
    cases ys.mapM f with
    | error e => rfl
    | ok us => exact congrArg Except.ok (stacked_append ts us)

@[simp] lemma stackOf_singleton (f : α → Except ε String) (x : α) : stackOf f [x] = f x := by
  rw [stackOf, List.mapM_cons, List.mapM_nil]
  cases f x with
  | error e => rfl
  | ok t => exact congrArg Except.ok (stacked_singleton t)

lemma stackOf_cons (f : α → Except ε String) (x : α) (xs : List α) :
    stackOf f (x :: xs) = do return atop (← f x) (← stackOf f xs) := by
  rw [← List.singleton_append, stackOf_append, stackOf_singleton]

/-- Stacks on each other are one stack. -/
lemma stackOf_flatMap {f : α → Except ε String} {g : β → Except ε String} {k : α → List β} {xs : List α}
    (h : ∀ x ∈ xs, f x = stackOf g (k x)) : stackOf f xs = stackOf g (xs.flatMap k) := by
  induction xs with
  | nil => rfl
  | cons x xs ih =>
    rw [stackOf_cons, List.flatMap_cons, stackOf_append, h x (List.mem_cons_self ..),
      ih fun y hy => h y (List.mem_cons_of_mem x hy)]

lemma exists_stackOf_iff {f : α → Except ε String} {xs : List α} :
    (∃ t, stackOf f xs = .ok t) ↔ ∀ x ∈ xs, ∃ t, f x = .ok t := by
  induction xs with
  | nil => simp [stackOf]
  | cons x xs ih =>
    rw [List.forall_mem_cons, ← ih]
    simp only [stackOf_cons, bind_eq_ok, pure_eq_ok]
    constructor
    · rintro ⟨_, t, ht, u, hu, -⟩
      exact ⟨⟨t, ht⟩, u, hu⟩
    · rintro ⟨⟨t, ht⟩, u, hu⟩
      exact ⟨_, t, ht, u, hu, rfl⟩

lemma isTrimmed_stackOf {f : α → Except ε String} {xs : List α}
    (h : ∀ x ∈ xs, ∀ t, f x = .ok t → IsTrimmed t) (ht : stackOf f xs = .ok t) : IsTrimmed t := by
  induction xs generalizing t with
  | nil =>
    obtain rfl := Except.ok.inj ht
    exact isTrimmed_empty
  | cons x xs ih =>
    simp only [stackOf_cons, bind_eq_ok, pure_eq_ok] at ht
    obtain ⟨u, hu, w, hw, rfl⟩ := ht
    rw [List.forall_mem_cons] at h
    exact (h.1 u hu).atop (ih h.2 hw)

end DocGraph.Text
