/-!
# Ordered maps

A finite map that keeps its keys in the order in which they were first put in. Putting a new value at
a key leaves the key where it is; erasing a key and putting it in again moves it to the end.

The view of a map is the list `entries`, in which no key occurs twice.
-/

namespace DocGraph

/-- A finite map whose keys are in the order of their first insertion. -/
structure OrderedMap (κ : Type) (α : Type) where
  entries : List (κ × α)
  distinct : (entries.map Prod.fst).Nodup

namespace OrderedMap

variable {κ α β : Type} [DecidableEq κ]

/-- The map without entries. -/
def empty : OrderedMap κ α := ⟨[], .nil⟩

instance : Inhabited (OrderedMap κ α) := ⟨empty⟩

/-- The keys in their order. -/
def keys (m : OrderedMap κ α) : List κ := m.entries.map Prod.fst

omit [DecidableEq κ] in
@[simp] theorem keys_empty : (empty : OrderedMap κ α).keys = [] := rfl

/-- The values in the order of their keys. -/
def values (m : OrderedMap κ α) : List α := m.entries.map Prod.snd

/-- The value at a key. -/
def get? (m : OrderedMap κ α) (k : κ) : Option α :=
  (m.entries.find? fun e => e.1 = k).map Prod.snd

@[simp] theorem get?_empty (k : κ) : (empty : OrderedMap κ α).get? k = none := rfl

/-- Whether there is a value at a key. -/
def contains (m : OrderedMap κ α) (k : κ) : Bool := m.entries.any fun e => e.1 = k

/-! ### Insertion -/

/-- Put a value at a key of a list of entries. -/
def insertEntry (k : κ) (v : α) : List (κ × α) → List (κ × α)
  | [] => [(k, v)]
  | e :: es => if e.1 = k then (k, v) :: es else e :: insertEntry k v es

theorem map_fst_insertEntry (k : κ) (v : α) (es : List (κ × α)) :
    (insertEntry k v es).map Prod.fst =
      if k ∈ es.map Prod.fst then es.map Prod.fst else es.map Prod.fst ++ [k] := by
  induction es with
  | nil => simp [insertEntry]
  | cons e es ih =>
    by_cases h : e.1 = k
    · simp [insertEntry, h]
    · have h' : ¬k = e.1 := fun h' => h h'.symm
      simp only [insertEntry, h, if_false, List.map_cons, ih, List.mem_cons, h', false_or]
      split <;> simp

theorem nodup_insertEntry (k : κ) (v : α) {es : List (κ × α)} (h : (es.map Prod.fst).Nodup) :
    ((insertEntry k v es).map Prod.fst).Nodup := by
  rw [map_fst_insertEntry]
  split
  · exact h
  · next hk =>
    rw [List.nodup_append]
    refine ⟨h, by simp, ?_⟩
    rintro a ha b hb rfl
    simp only [List.mem_singleton] at hb
    exact hk (hb ▸ ha)

/-- Put a value at a key, in place if the key is there and at the end if not. -/
def insert (m : OrderedMap κ α) (k : κ) (v : α) : OrderedMap κ α :=
  ⟨insertEntry k v m.entries, nodup_insertEntry k v m.distinct⟩

/-- The map with the given entries, the later ones put in after the earlier ones. -/
def ofList (es : List (κ × α)) : OrderedMap κ α := es.foldl (fun m e => m.insert e.1 e.2) empty

theorem keys_insert (m : OrderedMap κ α) (k : κ) (v : α) :
    (m.insert k v).keys = if k ∈ m.keys then m.keys else m.keys ++ [k] :=
  map_fst_insertEntry k v m.entries

theorem find?_insertEntry (k j : κ) (v : α) (es : List (κ × α)) :
    ((insertEntry k v es).find? fun e => e.1 = j).map Prod.snd =
      if k = j then some v else (es.find? fun e => e.1 = j).map Prod.snd := by
  induction es with
  | nil => by_cases h : k = j <;> simp [insertEntry, h]
  | cons e es ih =>
    by_cases hk : e.1 = k
    · by_cases hj : k = j
      · simp [insertEntry, hk, hj]
      · have : ¬e.1 = j := fun h => hj (hk ▸ h)
        simp [insertEntry, hk, hj]
    · by_cases hj : e.1 = j
      · subst hj
        have : ¬k = e.1 := fun h => hk h.symm
        simp [insertEntry, hk, this]
      · simp only [insertEntry, hk, if_false, List.find?_cons, hj, decide_false]
        exact ih

@[simp] theorem get?_insert (m : OrderedMap κ α) (k j : κ) (v : α) :
    (m.insert k v).get? j = if k = j then some v else m.get? j :=
  find?_insertEntry k j v m.entries

/-! ### Removal and change -/

/-- Remove a key and its value. -/
def erase (m : OrderedMap κ α) (k : κ) : OrderedMap κ α where
  entries := m.entries.filter fun e => e.1 ≠ k
  distinct := (List.filter_sublist.map Prod.fst).nodup m.distinct

/-- Keep the entries that satisfy a condition. -/
def filter (m : OrderedMap κ α) (p : κ → α → Bool) : OrderedMap κ α where
  entries := m.entries.filter fun e => p e.1 e.2
  distinct := (List.filter_sublist.map Prod.fst).nodup m.distinct

/-- Change all values. -/
def map (m : OrderedMap κ α) (f : κ → α → β) : OrderedMap κ β where
  entries := m.entries.map fun e => (e.1, f e.1 e.2)
  distinct := by simpa [Function.comp_def] using m.distinct

/-- Change the value at a key, if there is one. -/
def modify (m : OrderedMap κ α) (k : κ) (f : α → α) : OrderedMap κ α :=
  m.map fun j v => if j = k then f v else v

omit [DecidableEq κ] in
@[simp] theorem keys_map (m : OrderedMap κ α) (f : κ → α → β) : (m.map f).keys = m.keys := by
  simp [keys, map, Function.comp_def]

omit [DecidableEq κ] in
theorem map_map {γ : Type} (m : OrderedMap κ α) (f : κ → α → β) (h : κ → β → γ) :
    (m.map f).map h = m.map fun k a => h k (f k a) := by
  simp [map, Function.comp_def]

omit [DecidableEq κ] in
theorem map_id (m : OrderedMap κ α) : (m.map fun _ a => a) = m := by
  simp [map]

@[simp] theorem keys_modify (m : OrderedMap κ α) (k : κ) (f : α → α) :
    (m.modify k f).keys = m.keys := keys_map m _

@[simp] theorem keys_erase (m : OrderedMap κ α) (k : κ) :
    (m.erase k).keys = m.keys.filter (· ≠ k) := by
  simp [keys, erase, List.filter_map, Function.comp_def]

@[simp] theorem get?_map (m : OrderedMap κ α) (f : κ → α → β) (k : κ) :
    (m.map f).get? k = (m.get? k).map (f k) := by
  obtain ⟨es, _⟩ := m
  simp only [get?, map]
  induction es with
  | nil => rfl
  | cons e es ih =>
    by_cases h : e.1 = k
    · simp [h]
    · simp only [List.map_cons, List.find?_cons, h, decide_false]
      exact ih (by rename_i h'; exact (List.nodup_cons.1 h').2)

/-! ### Membership -/

theorem contains_iff (m : OrderedMap κ α) (k : κ) : m.contains k = true ↔ k ∈ m.keys := by
  simp [contains, keys]

theorem get?_isSome_iff (m : OrderedMap κ α) (k : κ) : (m.get? k).isSome ↔ k ∈ m.keys := by
  simp [get?, keys]

theorem get?_eq_none_iff {m : OrderedMap κ α} {k : κ} : m.get? k = none ↔ k ∉ m.keys := by
  rw [← get?_isSome_iff, Option.not_isSome_iff_eq_none]

theorem mem_entries_of_get? {m : OrderedMap κ α} {k : κ} {v : α} (h : m.get? k = some v) :
    (k, v) ∈ m.entries := by
  simp only [get?, Option.map_eq_some_iff] at h
  obtain ⟨e, he, rfl⟩ := h
  have hk : e.1 = k := by simpa using List.find?_some he
  exact hk ▸ List.mem_of_find?_eq_some he

theorem find?_of_mem {es : List (κ × α)} (hd : (es.map Prod.fst).Nodup) {k : κ} {v : α}
    (h : (k, v) ∈ es) : (es.find? fun e => e.1 = k) = some (k, v) := by
  induction es with
  | nil => simp at h
  | cons e es ih =>
    rw [List.map_cons, List.nodup_cons] at hd
    rcases List.mem_cons.1 h with rfl | h
    · simp
    · have : e.1 ≠ k := fun hk => hd.1 (hk ▸ List.mem_map.2 ⟨(k, v), h, rfl⟩)
      simp [this, ih hd.2 h]

theorem get?_eq_some_iff {m : OrderedMap κ α} {k : κ} {v : α} :
    m.get? k = some v ↔ (k, v) ∈ m.entries :=
  ⟨mem_entries_of_get?, fun h => by simp [get?, find?_of_mem m.distinct h]⟩

theorem mem_values_of_get? {m : OrderedMap κ α} {k : κ} {v : α} (h : m.get? k = some v) :
    v ∈ m.values :=
  List.mem_map.2 ⟨(k, v), mem_entries_of_get? h, rfl⟩

@[simp] theorem get?_filter (m : OrderedMap κ α) (p : κ → α → Bool) (k : κ) :
    (m.filter p).get? k = (m.get? k).filter (p k) := by
  ext v
  rw [get?_eq_some_iff, Option.filter_eq_some_iff, get?_eq_some_iff]
  exact List.mem_filter

@[simp] theorem get?_erase (m : OrderedMap κ α) (k j : κ) :
    (m.erase k).get? j = if k = j then none else m.get? j := by
  ext v
  rw [get?_eq_some_iff]
  split
  · next h => simp [erase, h]
  · next h =>
    have h' : j ≠ k := fun h' => h h'.symm
    simp [erase, h', get?_eq_some_iff]

/-- A value may be looked up from the end just as well. -/
theorem find?_reverse_entries (m : OrderedMap κ α) (k : κ) :
    (m.entries.reverse.find? fun e => e.1 = k).map Prod.snd = m.get? k := by
  let reversed : OrderedMap κ α :=
    ⟨m.entries.reverse, ((m.entries.reverse_perm.map Prod.fst).nodup_iff).2 m.distinct⟩
  change reversed.get? k = m.get? k
  ext v
  rw [get?_eq_some_iff, get?_eq_some_iff]
  exact List.mem_reverse

end OrderedMap

end DocGraph
