import Mathlib.Data.List.Forall2

/-!
# Outcomes

What is computed in steps that may fail has a result if every step has one, and fails as the first step
does that fails.
-/

namespace DocGraph

variable {ε α β : Type} {f : α → Except ε β} {x : Except ε α} {a b : α} {c : β} {e : ε} {xs : List α}
  {ys : List β}

/-! ### Steps -/

@[simp] lemma bind_eq_ok : (x >>= f) = .ok c ↔ ∃ a, x = .ok a ∧ f a = .ok c := by
  cases x <;> simp [bind, Except.bind]

@[simp] lemma bind_eq_error :
    (x >>= f) = .error e ↔ x = .error e ∨ ∃ a, x = .ok a ∧ f a = .error e := by
  cases x <;> simp [bind, Except.bind]

@[simp] lemma pure_eq_ok : (pure a : Except ε α) = .ok b ↔ a = b := by
  simp [pure, Except.pure]

@[simp] lemma pure_ne_error : (pure a : Except ε α) ≠ .error e := by
  simp [pure, Except.pure]

@[simp] lemma map_eq_ok {f : α → β} : (f <$> x) = .ok c ↔ ∃ a, x = .ok a ∧ f a = c := by
  cases x <;> simp [Functor.map, Except.map]

@[simp] lemma map_eq_error {f : α → β} : (f <$> x) = .error e ↔ x = .error e := by
  cases x <;> simp [Functor.map, Except.map]

/-! ### Lists -/

lemma mapM_eq_ok_iff : xs.mapM f = .ok ys ↔ List.Forall₂ (fun a b => f a = .ok b) xs ys := by
  induction xs generalizing ys with
  | nil => rw [List.mapM_nil, pure_eq_ok, List.forall₂_nil_left_iff, eq_comm]
  | cons a xs ih =>
    simp only [List.mapM_cons, bind_eq_ok, pure_eq_ok, ih]
    constructor
    · rintro ⟨b, hb, bs, hbs, rfl⟩
      exact .cons hb hbs
    · rintro (_ | ⟨hb, hbs⟩)
      exact ⟨_, hb, _, hbs, rfl⟩

lemma exists_mapM_eq_ok_iff : (∃ ys, xs.mapM f = .ok ys) ↔ ∀ a ∈ xs, ∃ b, f a = .ok b := by
  induction xs with
  | nil => simp
  | cons a xs ih =>
    rw [List.forall_mem_cons, ← ih]
    simp only [List.mapM_cons, bind_eq_ok, pure_eq_ok]
    constructor
    · rintro ⟨_, b, hb, bs, hbs, -⟩
      exact ⟨⟨b, hb⟩, bs, hbs⟩
    · rintro ⟨⟨b, hb⟩, bs, hbs⟩
      exact ⟨_, b, hb, bs, hbs, rfl⟩

lemma mapM_congr {g : α → Except ε β} (h : ∀ a ∈ xs, f a = g a) : xs.mapM f = xs.mapM g := by
  induction xs with
  | nil => rfl
  | cons a xs ih =>
    rw [List.forall_mem_cons] at h
    rw [List.mapM_cons, List.mapM_cons, h.1, ih h.2]

lemma exists_of_mapM_eq_error (h : xs.mapM f = .error e) : ∃ a ∈ xs, f a = .error e := by
  induction xs with
  | nil => simp at h
  | cons a xs ih =>
    simp only [List.mapM_cons, bind_eq_error, pure_ne_error, and_false, exists_false, or_false] at h
    rcases h with h | ⟨_, -, h⟩
    · exact ⟨a, List.mem_cons_self .., h⟩
    · obtain ⟨a', ha', h⟩ := ih h
      exact ⟨a', List.mem_cons_of_mem _ ha', h⟩

/-- One step that fails is enough for the whole to fail, though another one may decide how. -/
lemma exists_mapM_eq_error (ha : a ∈ xs) (h : f a = .error e) : ∃ e', xs.mapM f = .error e' := by
  induction xs with
  | nil => simp at ha
  | cons b xs ih =>
    rw [List.mapM_cons]
    cases hb : f b with
    | error e' => exact ⟨e', rfl⟩
    | ok c =>
      have hmem : a ∈ xs := (List.mem_cons.1 ha).resolve_left <| by
        rintro rfl
        cases h.symm.trans hb
      obtain ⟨e', he'⟩ := ih hmem
      exact ⟨e', by simp [he']⟩

lemma mapM_replace_of_eq {a' : α} {xs' : List α} (h : f a' = f a) :
    (xs ++ a' :: xs').mapM f = (xs ++ a :: xs').mapM f := by
  simp only [List.mapM_append, List.mapM_cons, h]

/-- What comes of one item stands at its place. -/
lemma mapM_replace {a' : α} {c' : β} {xs' : List α} (h : f a = .ok c) (h' : f a' = .ok c') :
    (xs ++ a' :: xs').mapM f = (·.set xs.length c') <$> (xs ++ a :: xs').mapM f := by
  induction xs with
  | nil =>
    simp only [List.nil_append, List.mapM_cons, h, h']
    cases xs'.mapM f <;> rfl
  | cons b xs ih =>
    simp only [List.cons_append, List.mapM_cons, ih]
    cases f b with
    | error e => rfl
    | ok d => cases (xs ++ a :: xs').mapM f <;> rfl

/-- Two items in one place come to the same if the whole does. -/
lemma eq_of_mapM_replace {a' : α} {xs' : List α} (h : (xs ++ a :: xs').mapM f = .ok ys)
    (h' : (xs ++ a' :: xs').mapM f = .ok ys) : f a = f a' := by
  induction xs generalizing ys with
  | nil =>
    simp only [List.nil_append, List.mapM_cons, bind_eq_ok, pure_eq_ok] at h h'
    obtain ⟨c, hc, cs, -, rfl⟩ := h
    obtain ⟨c', hc', cs', -, heq⟩ := h'
    rw [hc, hc', (List.cons.inj heq).1]
  | cons b xs ih =>
    simp only [List.cons_append, List.mapM_cons, bind_eq_ok, pure_eq_ok] at h h'
    obtain ⟨c, -, cs, hcs, rfl⟩ := h
    obtain ⟨c', -, cs', hcs', heq⟩ := h'
    exact ih hcs ((List.cons.inj heq).2 ▸ hcs')

end DocGraph
