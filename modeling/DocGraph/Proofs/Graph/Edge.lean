import DocGraph.Graph.Cycles
import DocGraph.Proofs.Value.Order
import Mathlib.Logic.Relation
import Mathlib.Tactic.Common

/-!
# Names and edges

Every name of a class leads to the same class as its full name, so edges run between full names and
names of stubs. Parents and mixins are the two kinds of edges; each is a relation between names here.

A cut takes away edges and adds none. What `cutParent` and `cutMixin` leave of the parents and mixins
of a class is said by one equation each.
-/

namespace DocGraph

/-! ### Lists without repetition -/

lemma mem_appendNew {xs ys : List String} {y : String} :
    y ∈ appendNew xs ys ↔ y ∈ xs ∨ y ∈ ys := by
  induction ys generalizing xs with
  | nil => simp [appendNew]
  | cons z ys ih =>
    rw [appendNew, List.foldl_cons, ← appendNew, ih]
    split
    · next hz =>
      simp only [List.mem_cons]
      constructor
      · rintro (h | h)
        · exact .inl h
        · exact .inr (.inr h)
      · rintro (h | rfl | h)
        · exact .inl h
        · exact .inl hz
        · exact .inr h
    · simp [or_assoc]

lemma nodup_appendNew {xs : List String} (h : xs.Nodup) (ys : List String) :
    (appendNew xs ys).Nodup := by
  induction ys generalizing xs with
  | nil => exact h
  | cons z ys ih =>
    rw [appendNew, List.foldl_cons, ← appendNew]
    split
    · exact ih h
    · next hz => exact ih (List.nodup_append.2 ⟨h, by simp, by rintro a ha b hb rfl; simp_all⟩)

lemma filter_appendNew (p : String → Bool) (xs ys : List String) :
    (appendNew xs ys).filter p = appendNew (xs.filter p) (ys.filter p) := by
  induction ys generalizing xs with
  | nil => rfl
  | cons z ys ih =>
    rw [appendNew, List.foldl_cons, ← appendNew, ih]
    by_cases hp : p z = true
    · rw [List.filter_cons_of_pos hp]
      by_cases hz : z ∈ xs
      · have hz' : z ∈ xs.filter p := List.mem_filter.2 ⟨hz, hp⟩
        simp [appendNew, hz, hz']
      · have hz' : z ∉ xs.filter p := fun h => hz (List.mem_filter.1 h).1
        simp [appendNew, hz, hz', hp]
    · rw [List.filter_cons_of_neg hp]
      split
      · rfl
      · simp [hp]

namespace ClassGraph

/-- A list breaks at the first occurrence of a member. -/
lemma exists_eq_append_fromFirst {a : String} {path : List String} (h : a ∈ path) :
    ∃ way rest, path = way ++ a :: rest ∧ a ∉ way ∧ fromFirst a path = a :: rest := by
  obtain ⟨way, rest, rfl, hway⟩ := List.eq_append_cons_of_mem h
  refine ⟨way, rest, rfl, hway, ?_⟩
  rw [fromFirst, List.dropWhile_append_of_pos]
  · simp
  · intro x hx
    simpa using fun hxa : x = a => hway (hxa ▸ hx)

variable {g : ClassGraph} {n m p x y : String} {c : DocClass}

/-! ### Names -/

lemma mem_classes_of_find? (h : g.find? n = some c) : c ∈ g.classes := by
  rcases Option.or_eq_some_iff.1 h with h | ⟨_, h⟩ <;> exact List.mem_of_find?_eq_some h

lemma mem_names_of_find? (h : g.find? n = some c) : c.name ∈ g.names :=
  List.mem_map_of_mem (mem_classes_of_find? h)

/-- A full name always means its own class. -/
lemma find?_name (h : c ∈ g.classes) : g.find? c.name = some c := by
  have hc : g.classes.find? (·.name = c.name) = some c := by
    rw [List.find?_eq_some_iff_getElem]
    obtain ⟨i, hi, rfl⟩ := List.getElem_of_mem h
    refine ⟨by simp, i, hi, rfl, fun j hj => ?_⟩
    have hd := (List.pairwise_iff_getElem.1 g.distinct) j i (by simp; omega) (by simpa using hi) hj
    simpa using hd
  rw [find?, hc, Option.some_or]

lemma exists_find?_of_mem_names (h : n ∈ g.names) : ∃ c, g.find? n = some c ∧ c.name = n := by
  obtain ⟨c, hc, rfl⟩ := List.mem_map.1 h
  exact ⟨c, find?_name hc, rfl⟩

lemma find?_mapClasses (g : ClassGraph) {f : DocClass → DocClass} (h : ∀ c, (f c).name = c.name)
    (halternate : ∀ c, (f c).alternateNames = c.alternateNames) (n : String) :
    (g.mapClasses f h).find? n = (g.find? n).map f := by
  have hfull : (fun c : DocClass => decide (c.name = n)) ∘ f = fun c => decide (c.name = n) := by
    funext c
    simp only [Function.comp_apply, h]
  have hother : (fun c : DocClass => decide (n ∈ c.alternateNames)) ∘ f =
      fun c => decide (n ∈ c.alternateNames) := by
    funext c
    simp only [Function.comp_apply, halternate]
  rw [find?, find?, mapClasses, List.find?_map, List.find?_map, hfull, hother, Option.map_or]

lemma canonical_eq_name (h : g.find? n = some c) : g.canonical n = c.name := by
  simp [canonical, h]

lemma canonical_eq_self_of_find? (h : g.find? n = none) : g.canonical n = n := by
  simp [canonical, h]

lemma canonical_of_mem_names (h : n ∈ g.names) : g.canonical n = n := by
  obtain ⟨c, hc, rfl⟩ := exists_find?_of_mem_names h
  exact canonical_eq_name hc

@[simp] lemma canonical_canonical (g : ClassGraph) (n : String) :
    g.canonical (g.canonical n) = g.canonical n := by
  cases h : g.find? n with
  | none => rw [canonical_eq_self_of_find? h, canonical_eq_self_of_find? h]
  | some c => rw [canonical_eq_name h, canonical_of_mem_names (mem_names_of_find? h)]

lemma canonical_mem_names (h : g.find? n = some c) : g.canonical n ∈ g.names := by
  rw [canonical_eq_name h]
  exact mem_names_of_find? h

/-- A name that stands for itself and is not that of a class is known to no class. -/
lemma find?_eq_none (hc : g.canonical n = n) (hn : n ∉ g.names) : g.find? n = none := by
  cases h : g.find? n with
  | none => rfl
  | some c => exact absurd (hc ▸ canonical_mem_names h) hn

lemma mem_sortedNames : n ∈ g.sortedNames ↔ n ∈ g.names := List.mem_mergeSort

/-- Classes are visited in strictly rising order of their names. -/
lemma pairwise_sortedNames (g : ClassGraph) : g.sortedNames.Pairwise (· < ·) :=
  Catalog.pairwise_inOrder g.distinct

/-! ### Parents -/

/-- One class is the parent of another. -/
def ParentEdge (g : ClassGraph) (n p : String) : Prop := g.parentOf n = some p

/-- One class is met on the way from another to its parent, the parent of that, and so on. -/
abbrev ParentReach (g : ClassGraph) : String → String → Prop := Relation.ReflTransGen g.ParentEdge

lemma parentOf_eq (h : g.find? n = some c) :
    g.parentOf n = if c.name ∈ g.cutParents then none else c.parent.map g.canonical := by
  simp [parentOf, h]

lemma parentOf_eq_none (h : g.find? n = none) : g.parentOf n = none := by
  simp [parentOf, h]

lemma exists_find?_of_parentOf (h : g.parentOf n = some p) : ∃ c, g.find? n = some c := by
  cases hc : g.find? n with
  | none => simp [parentOf_eq_none hc] at h
  | some c => exact ⟨c, rfl⟩

/-- Parents are given under their full names, if they have one. -/
lemma canonical_of_parentOf (h : g.parentOf n = some p) : g.canonical p = p := by
  obtain ⟨c, hc⟩ := exists_find?_of_parentOf h
  rw [parentOf_eq hc] at h
  split at h
  · simp at h
  · obtain ⟨q, -, rfl⟩ := Option.map_eq_some_iff.1 h
    exact canonical_canonical g q

lemma parentOf_eq_none_of_not_mem (hc : g.canonical n = n) (hn : n ∉ g.names) :
    g.parentOf n = none :=
  parentOf_eq_none (find?_eq_none hc hn)

lemma mem_names_of_parentOf (hc : g.canonical n = n) (h : g.parentOf n = some p) : n ∈ g.names := by
  by_contra hn
  simp [parentOf_eq_none_of_not_mem hc hn] at h

/-- A class that has a parent is not cut off. -/
lemma not_mem_cutParents (h : g.parentOf n = some p) : g.canonical n ∉ g.cutParents := by
  obtain ⟨c, hc⟩ := exists_find?_of_parentOf h
  intro hcut
  rw [canonical_eq_name hc] at hcut
  simp [parentOf_eq hc, hcut] at h

/-- The graph with some more classes cut off from their parents. -/
def withoutParents (g : ClassGraph) (ns : List String) : ClassGraph :=
  { g with cutParents := g.cutParents ++ ns }

@[simp] lemma withoutParents_nil (g : ClassGraph) : g.withoutParents [] = g := by
  simp [withoutParents]

lemma cutParent_withoutParents {ns : List String} (hn : n ∉ g.cutParents ++ ns) :
    (g.withoutParents ns).cutParent n = g.withoutParents (ns ++ [n]) := by
  simp [cutParent, withoutParents, List.mem_append.not.1 hn]

lemma parentOf_withoutParents (g : ClassGraph) (ns : List String) (n : String) :
    (g.withoutParents ns).parentOf n = if g.canonical n ∈ ns then none else g.parentOf n := by
  cases h : g.find? n with
  | none => simp [parentOf_eq_none (g := g.withoutParents ns) h, parentOf_eq_none h]
  | some c =>
    rw [parentOf_eq (g := g.withoutParents ns) h, parentOf_eq h, canonical_eq_name h]
    by_cases hc : c.name ∈ ns
    · simp [withoutParents, hc]
    · simp only [withoutParents, List.mem_append, hc, or_false, if_false]
      rfl

/-! ### Mixins -/

/-- One class is a mixin of another. Both are in the graph. -/
structure MixinEdge (g : ClassGraph) (n m : String) : Prop where
  left : n ∈ g.names
  right : m ∈ g.names
  mem : m ∈ g.mixinsOf n

lemma mixinsOf_eq (h : g.find? n = some c) :
    g.mixinsOf n =
      appendNew [] ((c.mixins.map g.canonical).filter fun m => (c.name, m) ∉ g.cutMixins) := by
  simp [mixinsOf, h]

lemma mixinsOf_eq_nil (h : g.find? n = none) : g.mixinsOf n = [] := by
  simp [mixinsOf, h]

lemma nodup_mixinsOf (g : ClassGraph) (n : String) : (g.mixinsOf n).Nodup := by
  cases h : g.find? n with
  | none => simp [mixinsOf_eq_nil h]
  | some c =>
    rw [mixinsOf_eq h]
    exact nodup_appendNew .nil _

/-- The mixins of a class are those that it declares, without those that are cut. -/
lemma mem_mixinsOf :
    m ∈ g.mixinsOf n ↔
      (∃ c, g.find? n = some c ∧ m ∈ c.mixins.map g.canonical) ∧
        (g.canonical n, m) ∉ g.cutMixins := by
  cases h : g.find? n with
  | none => simp [mixinsOf_eq_nil h]
  | some c =>
    rw [mixinsOf_eq h, mem_appendNew, List.mem_filter, canonical_eq_name h]
    simp

/-- An edge to a mixin that is followed is not cut. -/
lemma not_mem_cutMixins (h : m ∈ g.mixinsOf n) : (g.canonical n, m) ∉ g.cutMixins :=
  (mem_mixinsOf.1 h).2

/-- The graph with some more edges to mixins cut. -/
def withoutMixins (g : ClassGraph) (es : List (String × String)) : ClassGraph :=
  { g with cutMixins := g.cutMixins ++ es }

@[simp] lemma withoutMixins_nil (g : ClassGraph) : g.withoutMixins [] = g := by
  simp [withoutMixins]

@[simp] lemma names_withoutMixins (g : ClassGraph) (es : List (String × String)) :
    (g.withoutMixins es).names = g.names := rfl

lemma cutMixin_withoutMixins {es : List (String × String)} (h : (n, m) ∉ g.cutMixins ++ es) :
    (g.withoutMixins es).cutMixin n m = g.withoutMixins (es ++ [(n, m)]) := by
  simp [cutMixin, withoutMixins, List.mem_append.not.1 h]

lemma mixinsOf_withoutMixins (g : ClassGraph) (es : List (String × String)) (n : String) :
    (g.withoutMixins es).mixinsOf n =
      (g.mixinsOf n).filter fun m => (g.canonical n, m) ∉ es := by
  cases h : g.find? n with
  | none => simp [mixinsOf_eq_nil (g := g.withoutMixins es) h, mixinsOf_eq_nil h]
  | some c =>
    rw [mixinsOf_eq (g := g.withoutMixins es) h, mixinsOf_eq h, filter_appendNew,
      canonical_eq_name h]
    simp only [withoutMixins, List.mem_append, not_or, List.filter_nil, List.filter_filter]
    congr 1
    refine List.filter_congr fun m _ => ?_
    simp [Bool.and_comm]

lemma mem_mixinsOf_withoutMixins {es : List (String × String)} :
    m ∈ (g.withoutMixins es).mixinsOf n ↔ m ∈ g.mixinsOf n ∧ (g.canonical n, m) ∉ es := by
  simp [mixinsOf_withoutMixins]

/-- A single cut takes one mixin from one class. -/
lemma mixinsOf_cutMixin (g : ClassGraph) (n m x : String) :
    (g.cutMixin n m).mixinsOf x = (g.mixinsOf x).filter fun y => (g.canonical x, y) ≠ (n, m) := by
  by_cases hcut : (n, m) ∈ g.cutMixins
  · have heq : g.cutMixin n m = g := by simp [cutMixin, hcut]
    rw [heq, eq_comm, List.filter_eq_self]
    intro y hy
    rw [decide_eq_true_eq]
    exact fun hxy => not_mem_cutMixins hy (hxy ▸ hcut)
  · have heq : g.cutMixin n m = g.withoutMixins [(n, m)] := by
      simp [cutMixin, withoutMixins, hcut]
    rw [heq, mixinsOf_withoutMixins]
    simp

lemma mem_mixinsOf_cutMixin {k : String} :
    y ∈ (g.cutMixin n k).mixinsOf x ↔ y ∈ g.mixinsOf x ∧ (g.canonical x, y) ≠ (n, k) := by
  rw [mixinsOf_cutMixin, List.mem_filter, decide_eq_true_eq]

end ClassGraph

end DocGraph
