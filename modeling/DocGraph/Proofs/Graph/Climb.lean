import DocGraph.Proofs.Graph.Ancestors
import DocGraph.Proofs.Graph.Naming

/-!
# Climbs

A climb goes from a class to its parent, to the parent of that, and so on, until there is no parent or a
name comes up that it has met, the name it began with included. It knows nothing of which names are those of
classes. `Climbs` tells where a climb stops, so it has something to tell only of climbs that do.

Whatever parents lead back to each other and whatever is cut, the climb from a class stops, and the ancestors
of the class are what it has met: every name that parents lead to, each once, in no more steps than there
are classes.
-/

namespace DocGraph.ClassGraph

variable {g : ClassGraph} {n x : String} {seen xs ys : List String}

/-- The climb from a name, past none of the names that are seen, stops when it has met some others. -/
inductive Climbs (g : ClassGraph) : List String → String → List String → Prop
  | top {seen : List String} {n : String} (h : g.parentOf n = none) : Climbs g seen n []
  | back {seen : List String} {n p : String} (h : g.parentOf n = some p) (hp : p ∈ seen) :
    Climbs g seen n []
  | up {seen xs : List String} {n p : String} (h : g.parentOf n = some p) (hp : p ∉ seen)
    (hxs : Climbs g (p :: seen) p xs) : Climbs g seen n (p :: xs)

/-- Every climb stops. -/
lemma climbs_ancestorsFrom (g : ClassGraph) (seen : List String) (n : String) :
    g.Climbs seen n (g.ancestorsFrom seen n) := by
  fun_induction g.ancestorsFrom seen n with
  | case1 seen n h => exact .top h
  | case2 seen n p h hs => exact .back h hs
  | case3 seen n p h hs hn ih => exact .up h hs ih
  | case4 seen n p h hs hn =>
    -- the climb itself tries to go on from a stub
    exact .up h hs (.top (parentOf_eq_none_of_not_mem (canonical_of_parentOf h) hn))

namespace Climbs

lemma unique (h : g.Climbs seen n xs) (h' : g.Climbs seen n ys) : xs = ys := by
  induction h generalizing ys with
  | top h =>
    cases h' with
    | top => rfl
    | back => rfl
    | up h' => simp [h] at h'
  | back h hp =>
    cases h' with
    | top => rfl
    | back => rfl
    | up h' hp' =>
      obtain rfl := Option.some.inj (h.symm.trans h')
      exact absurd hp hp'
  | up h hp _ ih =>
    cases h' with
    | top h' => simp [h] at h'
    | back h' hp' =>
      obtain rfl := Option.some.inj (h.symm.trans h')
      exact absurd hp' hp
    | up h' _ hys =>
      obtain rfl := Option.some.inj (h.symm.trans h')
      rw [ih hys]

lemma eq_ancestorsFrom (h : g.Climbs seen n xs) : xs = g.ancestorsFrom seen n :=
  h.unique (climbs_ancestorsFrom g seen n)

lemma nodup (h : g.Climbs seen n xs) : xs.Nodup := by
  induction h with
  | top => exact .nil
  | back => exact .nil
  | up _ _ hxs ih =>
    refine List.nodup_cons.2 ⟨fun hmem => ?_, ih⟩
    rw [hxs.eq_ancestorsFrom] at hmem
    exact not_mem_seen_of_mem_ancestorsFrom hmem (List.mem_cons_self ..)

/-- Each name is met as the parent of the one before it. -/
lemma isChain (h : g.Climbs seen n xs) : List.IsChain g.ParentEdge (n :: xs) := by
  induction h with
  | top => exact .singleton _
  | back => exact .singleton _
  | up h _ _ ih => exact .cons_cons h ih

/-- What the climb goes on from is a class. -/
lemma mem_names_of_mem_dropLast (h : g.Climbs seen n xs) (hx : x ∈ xs.dropLast) : x ∈ g.names := by
  induction h with
  | top => simp at hx
  | back => simp at hx
  | up h _ hxs ih =>
    cases hxs with
    | top => simp at hx
    | back => simp at hx
    | up h' hp' hxs =>
      rw [List.dropLast_cons_cons, List.mem_cons] at hx
      rcases hx with rfl | hx
      · exact mem_names_of_parentOf (canonical_of_parentOf h) h'
      · exact ih hx

end Climbs

/-! ### The ancestors of a class -/

lemma not_isStub_of_mem_names (h : n ∈ g.names) : ¬g.isStub n := by
  rw [isStub_iff, mem_external, mem_unresolved]
  rintro (⟨-, hn⟩ | ⟨-, hnone, -⟩)
  · exact hn h
  · obtain ⟨c, hc, -⟩ := exists_find?_of_mem_names h
    rw [hc] at hnone
    cases hnone

lemma nodup_chain (g : ClassGraph) (n : String) : (g.chain n).Nodup := by
  refine List.nodup_cons.2 ⟨fun hmem => ?_, (climbs_ancestorsFrom g [n] n).nodup⟩
  exact not_mem_seen_of_mem_ancestorsFrom hmem (List.mem_singleton_self n)

/-- A class, together with its ancestors but the last, is a row of different classes. -/
lemma length_ancestorNames_le (hn : n ∈ g.names) : (g.ancestorNames n).length ≤ g.classes.length := by
  have hsub : n :: (g.ancestorNames n).dropLast ⊆ g.names := by
    refine List.cons_subset.2 ⟨hn, fun x hx => ?_⟩
    exact (climbs_ancestorsFrom g [n] n).mem_names_of_mem_dropLast hx
  have hnodup : (n :: (g.ancestorNames n).dropLast).Nodup :=
    (nodup_chain g n).sublist ((List.dropLast_sublist _).cons_cons n)
  have hlength := (List.subperm_of_subset hnodup hsub).length_le
  rw [names, List.length_map, List.length_cons, List.length_dropLast] at hlength
  omega

/-- The ancestors of a name are what parents lead to, except for the name itself. -/
lemma mem_ancestorNames_iff :
    x ∈ g.ancestorNames n ↔ x ≠ n ∧ Relation.TransGen g.ParentEdge n x := by
  constructor
  · intro hx
    refine ⟨?_, transGen_of_mem_ancestorsFrom hx⟩
    simpa using not_mem_seen_of_mem_ancestorsFrom hx
  · rintro ⟨hne, hx⟩
    obtain ⟨i, hi⟩ := exists_parentAt_iff.2 hx.to_reflTransGen
    obtain ⟨j, -, hj⟩ := exists_mem_ascents hi
    have hmem : x ∈ g.chain n := by
      rw [← map_fst_ascents]
      exact List.mem_map_of_mem hj
    exact (List.mem_cons.1 hmem).resolve_left hne

/-- In every state of cuts the climb from a class stops, and what it has met are the ancestors of the class:
different names, without the class itself, no more than there are classes, all but the last of them classes
and no stubs, each the parent of the one before; and all names but the class that parents lead to are among
them. -/
theorem climb_stops_and_meets_all (g : ClassGraph) (hn : n ∈ g.names) :
    (∀ xs, g.Climbs [n] n xs ↔ xs = g.ancestorNames n) ∧
    (n :: g.ancestorNames n).Nodup ∧
    (g.ancestorNames n).length ≤ g.classes.length ∧
    (∀ x ∈ (g.ancestorNames n).dropLast, x ∈ g.names ∧ ¬g.isStub x) ∧
    List.IsChain g.ParentEdge (n :: g.ancestorNames n) ∧
    ∀ x, x ∈ g.ancestorNames n ↔ x ≠ n ∧ Relation.TransGen g.ParentEdge n x := by
  have hclimb : g.Climbs [n] n (g.ancestorNames n) := climbs_ancestorsFrom g [n] n
  refine ⟨fun xs => ⟨fun h => h.unique hclimb, ?_⟩, nodup_chain g n, length_ancestorNames_le hn, ?_,
    hclimb.isChain, fun x => mem_ancestorNames_iff⟩
  · rintro rfl
    exact hclimb
  · intro x hx
    have hname := hclimb.mem_names_of_mem_dropLast hx
    exact ⟨hname, not_isStub_of_mem_names hname⟩

/-- A slider whose ancestors lead back to each other but not to it, and a chart on a class outside the
graph. -/
def spiralGraph : ClassGraph where
  classes := [
    { name := "Slider", parent := some "Rail" },
    { name := "Track", alternateNames := ["Rail"], parent := some "Knob" },
    { name := "Knob", parent := some "Rail" },
    { name := "Chart", parent := some "Plot" },
    { name := "Plot", parent := some "Base" }]
  registered := ["Base"]
  distinct := by decide

theorem climb_stops_and_meets_all_spiral :
    "Slider" ∈ spiralGraph.names ∧ spiralGraph.ancestorNames "Slider" = ["Track", "Knob"] ∧
      "Chart" ∈ spiralGraph.names ∧ spiralGraph.ancestorNames "Chart" = ["Plot", "Base"] ∧
      spiralGraph.isStub "Base" := by
  have hslider : "Slider" ∈ spiralGraph.names := by decide
  have hchart : "Chart" ∈ spiralGraph.names := by decide
  refine ⟨hslider, ?_, hchart, ?_, by decide⟩
  · refine (((climb_stops_and_meets_all spiralGraph hslider).1 _).1 ?_).symm
    exact .up (by decide) (by decide) (.up (by decide) (by decide) (.back (p := "Track") (by decide) (by decide)))
  · refine (((climb_stops_and_meets_all spiralGraph hchart).1 _).1 ?_).symm
    exact .up (by decide) (by decide) (.up (by decide) (by decide) (.top (by decide)))

end DocGraph.ClassGraph
