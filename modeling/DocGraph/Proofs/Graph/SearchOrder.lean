import DocGraph.Proofs.Graph.Ancestors

/-!
# Search order

The classes that are searched for a class are those that one comes to by going up along parents, or by
going up some way to an owner, over to one of its mixins, and up again from there. A class may be reached in
many ways, and cycles of parents that are not cut even give endlessly many. They are compared as routes: all
that only go up come before the others, shorter ones first, and the others are compared by the distance of
the owner, then by the place of the mixin in the declaration, then by the distance above the mixin.

The walks of the search take routes in rising order, and for each route they leave out they have taken one
before it to the same class. So a class is met first on its least route.
-/

namespace DocGraph.ClassGraph

variable {g : ClassGraph} {n m o x : String} {c : DocClass} {i j k : Nat}

/-! ### Routes -/

/-- A way to a class: up along parents, or up to an owner, over to a mixin at a place of its declaration,
and up from there. -/
inductive Route
  | up (distance : Nat)
  | across (owner place distance : Nat)

/-- Routes that only go up come first. -/
def Route.Before : Route → Route → Prop
  | .up i, .up i' => i < i'
  | .up _, .across _ _ _ => True
  | .across _ _ _, .up _ => False
  | .across i j k, .across i' j' k' => i < i' ∨ i = i' ∧ (j < j' ∨ j = j' ∧ k < k')

/-- A mixin that is not cut is declared at a place. -/
def DeclaresAt (g : ClassGraph) (o : String) (j : Nat) (m : String) : Prop :=
  m ∈ g.mixinsOf o ∧ ∃ c ∈ g.find? o, (c.mixins.map g.canonical)[j]? = some m

/-- A route leads from one name to another. -/
def LeadsTo (g : ClassGraph) (n : String) : Route → String → Prop
  | .up i, x => g.parentAt i n = some x
  | .across i j k, x =>
    ∃ o m, g.parentAt i n = some o ∧ g.DeclaresAt o j m ∧ g.parentAt k m = some x

/-- The first place at which a mixin is declared. -/
def placeOf (g : ClassGraph) (o m : String) : Nat :=
  ((g.find? o).elim [] fun c => c.mixins.map g.canonical).idxOf m

/-- The routes that the search takes, each with the name that it leads to. -/
def routes (g : ClassGraph) (n : String) : List (Route × String) :=
  (g.ascents n).map (fun a => (.up a.2, a.1)) ++
    (g.ascents n).flatMap fun a => (g.mixinsOf a.1).flatMap fun m =>
      (g.ascents m).map fun b => (.across a.2 (g.placeOf a.1 m) b.2, b.1)

lemma map_snd_routes (g : ClassGraph) (n : String) :
    (g.routes n).map Prod.snd = g.chain n ++ g.mixinCandidates n := by
  rw [routes, List.map_append, List.map_map, mixinCandidates, List.map_flatMap, ← chain,
    ← map_fst_ascents g n, List.flatMap_map]
  congr 1
  refine List.flatMap_congr fun a _ => ?_
  rw [List.map_flatMap]
  refine List.flatMap_congr fun m _ => ?_
  rw [List.map_map]
  exact map_fst_ascents g m

/-! ### Places -/

lemma idxOf_le_of_getElem? {xs : List String} (h : xs[j]? = some x) : xs.idxOf x ≤ j := by
  induction xs generalizing j with
  | nil => simp at h
  | cons y xs ih =>
    rw [List.idxOf_cons]
    cases j with
    | zero =>
      obtain rfl : y = x := by simpa using h
      simp
    | succ j =>
      have hrest := ih (by simpa using h)
      cases y == x with
      | true => exact Nat.zero_le _
      | false => exact Nat.succ_le_succ hrest

/-- Names that are listed once each stand in the order of their first places. -/
lemma pairwise_appendNew (xs : List String) :
    (appendNew [] xs).Pairwise fun a b => xs.idxOf a < xs.idxOf b := by
  induction xs using List.reverseRecOn with
  | nil => exact .nil
  | append_singleton xs x ih =>
    have hold : ∀ a ∈ appendNew [] xs, (xs ++ [x]).idxOf a = xs.idxOf a := fun a ha =>
      List.idxOf_append_of_mem (by simpa [mem_appendNew] using ha)
    have hkept : (appendNew [] xs).Pairwise fun a b => (xs ++ [x]).idxOf a < (xs ++ [x]).idxOf b :=
      ih.imp_of_mem fun ha hb hab => by rwa [hold _ ha, hold _ hb]
    have hstep : appendNew [] (xs ++ [x]) =
        if x ∈ appendNew [] xs then appendNew [] xs else appendNew [] xs ++ [x] := by
      rw [appendNew, List.foldl_append]
      rfl
    rw [hstep]
    split
    · exact hkept
    · next hx =>
      rw [List.pairwise_append]
      refine ⟨hkept, List.pairwise_singleton _ _, fun a ha b hb => ?_⟩
      obtain rfl := List.mem_singleton.1 hb
      have hxs : b ∉ xs := by simpa [mem_appendNew] using hx
      have haxs : a ∈ xs := by simpa [mem_appendNew] using ha
      rw [hold a ha, List.idxOf_append_of_notMem hxs]
      have := List.idxOf_lt_length_of_mem haxs
      omega

/-- Mixins are searched in the order of their declaration. -/
lemma pairwise_mixinsOf (g : ClassGraph) (o : String) :
    (g.mixinsOf o).Pairwise fun a b => g.placeOf o a < g.placeOf o b := by
  cases h : g.find? o with
  | none =>
    rw [mixinsOf_eq_nil h]
    exact .nil
  | some c =>
    rw [mixinsOf_eq h, ← List.filter_nil, ← filter_appendNew]
    simp only [placeOf, h, Option.elim_some]
    exact (pairwise_appendNew _).filter _

lemma declaresAt_placeOf (h : m ∈ g.mixinsOf o) : g.DeclaresAt o (g.placeOf o m) m := by
  obtain ⟨c, hc, hm⟩ := (mem_mixinsOf.1 h).1
  refine ⟨h, c, hc, ?_⟩
  rw [placeOf, hc]
  exact List.getElem?_idxOf hm

lemma placeOf_le (h : g.DeclaresAt o j m) : g.placeOf o m ≤ j := by
  obtain ⟨-, c, hc, hj⟩ := h
  rw [placeOf, Option.mem_def.1 hc]
  exact idxOf_le_of_getElem? hj

/-! ### The routes of the search -/

/-- The search takes its routes in rising order. -/
lemma pairwise_routes (g : ClassGraph) (n : String) :
    (g.routes n).Pairwise fun a b => a.1.Before b.1 := by
  rw [routes, List.pairwise_append, List.pairwise_map, List.pairwise_flatMap]
  refine ⟨g.pairwise_ascents n, ⟨fun a _ => ?_, ?_⟩, ?_⟩
  · -- below one owner
    rw [List.pairwise_flatMap]
    refine ⟨fun m _ => ?_, ?_⟩
    · rw [List.pairwise_map]
      exact (g.pairwise_ascents m).imp fun h => .inr ⟨rfl, .inr ⟨rfl, h⟩⟩
    · refine (g.pairwise_mixinsOf a.1).imp fun h b hb b' hb' => ?_
      obtain ⟨_, -, rfl⟩ := List.mem_map.1 hb
      obtain ⟨_, -, rfl⟩ := List.mem_map.1 hb'
      exact .inr ⟨rfl, .inl h⟩
  · -- from one owner to the next
    refine (g.pairwise_ascents n).imp fun h b hb b' hb' => ?_
    obtain ⟨_, -, hb⟩ := List.mem_flatMap.1 hb
    obtain ⟨_, -, rfl⟩ := List.mem_map.1 hb
    obtain ⟨_, -, hb'⟩ := List.mem_flatMap.1 hb'
    obtain ⟨_, -, rfl⟩ := List.mem_map.1 hb'
    exact .inl h
  · rintro a ha b hb
    obtain ⟨_, -, rfl⟩ := List.mem_map.1 ha
    obtain ⟨_, -, hb⟩ := List.mem_flatMap.1 hb
    obtain ⟨_, -, hb⟩ := List.mem_flatMap.1 hb
    obtain ⟨_, -, rfl⟩ := List.mem_map.1 hb
    trivial

lemma leadsTo_of_mem_routes {r : Route} (h : (r, x) ∈ g.routes n) : g.LeadsTo n r x := by
  rcases List.mem_append.1 h with h | h
  · obtain ⟨a, ha, heq⟩ := List.mem_map.1 h
    obtain ⟨rfl, rfl⟩ := Prod.mk.inj heq
    exact parentAt_of_mem_ascents ha
  · obtain ⟨a, ha, h⟩ := List.mem_flatMap.1 h
    obtain ⟨m, hm, h⟩ := List.mem_flatMap.1 h
    obtain ⟨b, hb, heq⟩ := List.mem_map.1 h
    obtain ⟨rfl, rfl⟩ := Prod.mk.inj heq
    exact ⟨a.1, m, parentAt_of_mem_ascents ha, declaresAt_placeOf hm, parentAt_of_mem_ascents hb⟩

/-- Where a route leads, the search comes by this route or by one before it. -/
lemma exists_mem_routes {r : Route} (h : g.LeadsTo n r x) :
    ∃ r', (r', x) ∈ g.routes n ∧ (r' = r ∨ r'.Before r) := by
  cases r with
  | up i =>
    obtain ⟨j, hj, hmem⟩ := exists_mem_ascents h
    refine ⟨.up j, List.mem_append_left _ (List.mem_map.2 ⟨_, hmem, rfl⟩), ?_⟩
    rcases hj.eq_or_lt with rfl | hlt
    · exact .inl rfl
    · exact .inr hlt
  | across i j k =>
    obtain ⟨o, m, ho, hm, hx⟩ := h
    obtain ⟨i', hi, howner⟩ := exists_mem_ascents ho
    obtain ⟨k', hk, habove⟩ := exists_mem_ascents hx
    have hj := placeOf_le hm
    refine ⟨.across i' (g.placeOf o m) k', List.mem_append_right _ ?_, ?_⟩
    · refine List.mem_flatMap.2 ⟨_, howner, List.mem_flatMap.2 ⟨m, hm.1, ?_⟩⟩
      exact List.mem_map.2 ⟨_, habove, rfl⟩
    · simp only [Route.across.injEq, Route.Before]
      omega

/-- The search comes to the names to which a route leads, and these are the names that can be reached. -/
lemma mem_map_snd_routes_iff :
    x ∈ (g.routes n).map Prod.snd ↔
      g.ParentReach n x ∨ ∃ o m, g.ParentReach n o ∧ m ∈ g.mixinsOf o ∧ g.ParentReach m x := by
  simp only [← exists_parentAt_iff]
  constructor
  · intro h
    obtain ⟨⟨r, _⟩, hmem, rfl⟩ := List.mem_map.1 h
    have hleads := leadsTo_of_mem_routes hmem
    cases r with
    | up i => exact .inl ⟨i, hleads⟩
    | across i j k =>
      obtain ⟨o, m, ho, hm, hx⟩ := hleads
      exact .inr ⟨o, m, ⟨i, ho⟩, hm.1, k, hx⟩
  · intro h
    have hleads : ∃ r, g.LeadsTo n r x := by
      rcases h with ⟨i, hi⟩ | ⟨o, m, ⟨i, ho⟩, hm, k, hx⟩
      · exact ⟨.up i, hi⟩
      · exact ⟨.across i _ k, o, m, ho, declaresAt_placeOf hm, hx⟩
    obtain ⟨r, hr⟩ := hleads
    obtain ⟨r', hmem, -⟩ := exists_mem_routes hr
    exact List.mem_map.2 ⟨_, hmem, rfl⟩

lemma canonical_of_parentAt (hn : g.canonical n = n) (h : g.parentAt i n = some x) :
    g.canonical x = x := by
  cases i with
  | zero => exact Option.some.inj h ▸ hn
  | succ i =>
    rw [parentAt_succ] at h
    obtain ⟨_, -, hp⟩ := Option.bind_eq_some_iff.1 h
    exact canonical_of_parentOf hp

/-- All names that the search comes to stand for themselves. -/
lemma canonical_of_leadsTo {r : Route} (hn : g.canonical n = n) (h : g.LeadsTo n r x) :
    g.canonical x = x := by
  cases r with
  | up i => exact canonical_of_parentAt hn h
  | across i j k =>
    obtain ⟨o, m, -, hm, hx⟩ := h
    obtain ⟨_, -, hdeclared⟩ := (mem_mixinsOf.1 hm.1).1
    obtain ⟨m, -, rfl⟩ := List.mem_map.1 hdeclared
    exact canonical_of_parentAt (canonical_canonical g m) hx

lemma Route.Before.trans {r r' r'' : Route} (h : r.Before r') (h' : r'.Before r'') :
    r.Before r'' := by
  cases r <;> cases r' <;> cases r'' <;> simp only [Route.Before] at h h' ⊢ <;> omega

/-! ### First occurrences -/

variable {seen : List String} {cs : List DocClass}

lemma mem_firstOccurrences (h : c ∈ firstOccurrences seen cs) : c ∈ cs := by
  fun_induction firstOccurrences seen cs with
  | case1 => exact h
  | case2 _ _ _ _ ih => exact List.mem_cons_of_mem _ (ih h)
  | case3 _ _ _ _ ih =>
    rcases List.mem_cons.1 h with rfl | h
    · exact List.mem_cons_self ..
    · exact List.mem_cons_of_mem _ (ih h)

lemma name_not_mem_of_mem_firstOccurrences (h : c ∈ firstOccurrences seen cs) : c.name ∉ seen := by
  fun_induction firstOccurrences seen cs with
  | case1 => simp at h
  | case2 _ _ _ _ ih => exact ih h
  | case3 seen d cs hd ih =>
    rcases List.mem_cons.1 h with rfl | h
    · exact hd
    · exact fun hc => ih h (List.mem_cons_of_mem _ hc)

lemma nodup_firstOccurrences (seen : List String) (cs : List DocClass) :
    ((firstOccurrences seen cs).map DocClass.name).Nodup := by
  fun_induction firstOccurrences seen cs with
  | case1 => exact .nil
  | case2 _ _ _ _ ih => exact ih
  | case3 seen d cs hd ih =>
    rw [List.map_cons, List.nodup_cons]
    refine ⟨fun hmem => ?_, ih⟩
    obtain ⟨c, hc, hname⟩ := List.mem_map.1 hmem
    exact name_not_mem_of_mem_firstOccurrences hc (hname ▸ List.mem_cons_self ..)

/-- No class is left out whose name has not been seen. -/
lemma mem_firstOccurrences_of_mem (hinj : ∀ d ∈ cs, d.name = c.name → d = c) (hc : c ∈ cs)
    (hs : c.name ∉ seen) : c ∈ firstOccurrences seen cs := by
  fun_induction firstOccurrences seen cs with
  | case1 => simp at hc
  | case2 seen d cs hd ih =>
    have hne : c ≠ d := by
      rintro rfl
      exact hs hd
    exact ih (fun d' hd' => hinj d' (List.mem_cons_of_mem _ hd')) ((List.mem_cons.1 hc).resolve_left hne) hs
  | case3 seen d cs hd ih =>
    by_cases hdc : d = c
    · exact hdc ▸ List.mem_cons_self ..
    · have hname : c.name ≠ d.name := fun h => hdc (hinj d (List.mem_cons_self ..) h.symm)
      refine List.mem_cons_of_mem _ (ih (fun d' hd' => hinj d' (List.mem_cons_of_mem _ hd')) ?_ ?_)
      · exact (List.mem_cons.1 hc).resolve_left fun h => hdc h.symm
      · simp [hname, hs]

/-- If classes stand in a list by rising routes, the first occurrence of one comes before all occurrences of
those that follow it. -/
lemma pairwise_firstOccurrences {ks : List (Route × DocClass)}
    (h : ks.Pairwise fun a b => a.1.Before b.1) (seen : List String) :
    (firstOccurrences seen (ks.map Prod.snd)).Pairwise fun c d =>
      ∃ r, (r, c) ∈ ks ∧ ∀ r', (r', d) ∈ ks → r.Before r' := by
  induction ks generalizing seen with
  | nil => exact .nil
  | cons a ks ih =>
    obtain ⟨ha, hks⟩ := List.pairwise_cons.1 h
    have hlater : ∀ {seen'}, a.2.name ∈ seen' →
        (firstOccurrences seen' (ks.map Prod.snd)).Pairwise fun c d =>
          ∃ r, (r, c) ∈ a :: ks ∧ ∀ r', (r', d) ∈ a :: ks → r.Before r' := by
      intro seen' hseen
      refine (ih hks seen').imp_of_mem fun _ hd ⟨r, hr, hbefore⟩ => ?_
      refine ⟨r, List.mem_cons_of_mem _ hr, fun r' hr' => hbefore r' ?_⟩
      refine (List.mem_cons.1 hr').resolve_left ?_
      rintro rfl
      exact name_not_mem_of_mem_firstOccurrences hd hseen
    rw [List.map_cons, firstOccurrences]
    split
    · next hs => exact hlater hs
    · refine List.pairwise_cons.2 ⟨fun d hd => ?_, hlater (List.mem_cons_self ..)⟩
      refine ⟨a.1, List.mem_cons_self .., fun r' hr' => ?_⟩
      rcases List.mem_cons.1 hr' with rfl | hr'
      · exact absurd (List.mem_cons_self ..) (name_not_mem_of_mem_firstOccurrences hd)
      · exact ha _ hr'

/-! ### Search order -/

lemma mem_classes_of_mem_searchOrder (h : c ∈ g.searchOrder n) : c ∈ g.classes := by
  obtain ⟨_, -, hc⟩ := List.mem_filterMap.1 (mem_firstOccurrences h)
  exact mem_classes_of_find? hc

/-- The classes of the search, each with the routes that the search takes to it. -/
def routed (g : ClassGraph) (n : String) : List (Route × DocClass) :=
  (g.routes n).filterMap fun a => (g.find? a.2).map (a.1, ·)

lemma mem_routed {r : Route} (hn : g.canonical n = n) :
    (r, c) ∈ g.routed n ↔ (r, c.name) ∈ g.routes n ∧ c ∈ g.classes := by
  simp only [routed, List.mem_filterMap, Option.map_eq_some_iff, Prod.mk.injEq]
  constructor
  · rintro ⟨⟨r, x⟩, hx, _, hfind, rfl, rfl⟩
    have hname := canonical_eq_name hfind
    rw [canonical_of_leadsTo hn (leadsTo_of_mem_routes hx)] at hname
    exact ⟨hname ▸ hx, mem_classes_of_find? hfind⟩
  · rintro ⟨hr, hc⟩
    exact ⟨_, hr, c, find?_name hc, rfl, rfl⟩

/-- The class itself need not be left out of the candidates, since its name has been seen. -/
lemma searchOrder_eq (hn : n ∈ g.names) :
    g.searchOrder n = firstOccurrences [n] ((g.routed n).map Prod.snd) := by
  obtain ⟨c, hc, rfl⟩ := exists_find?_of_mem_names hn
  have hsnd : (g.routed c.name).map Prod.snd =
      ((g.routes c.name).map Prod.snd).filterMap g.find? := by
    simp [routed, List.map_filterMap, List.filterMap_map, Function.comp_def]
  rw [hsnd, map_snd_routes, chain, List.cons_append, List.filterMap_cons_some hc, firstOccurrences,
    if_pos (List.mem_singleton_self _), searchOrder]

lemma pairwise_routed (g : ClassGraph) (n : String) :
    (g.routed n).Pairwise fun a b => a.1.Before b.1 := by
  refine (g.pairwise_routes n).filterMap _ fun a a' h b hb b' hb' => ?_
  obtain ⟨_, -, rfl⟩ := Option.map_eq_some_iff.1 hb
  obtain ⟨_, -, rfl⟩ := Option.map_eq_some_iff.1 hb'
  exact h

/-- The search finds the other classes to which its routes lead. -/
lemma mem_searchOrder_iff (hn : n ∈ g.names) :
    c ∈ g.searchOrder n ↔ c ∈ g.classes ∧ c.name ≠ n ∧ c.name ∈ (g.routes n).map Prod.snd := by
  have hrouted : ∀ d, d ∈ (g.routed n).map Prod.snd ↔
      d.name ∈ (g.routes n).map Prod.snd ∧ d ∈ g.classes := fun d => by
    simp only [List.mem_map, Prod.exists, exists_eq_right, mem_routed (canonical_of_mem_names hn),
      exists_and_right]
  rw [searchOrder_eq hn]
  constructor
  · intro h
    obtain ⟨hmem, hc⟩ := (hrouted c).1 (mem_firstOccurrences h)
    exact ⟨hc, by simpa using name_not_mem_of_mem_firstOccurrences h, hmem⟩
  · rintro ⟨hc, hne, hmem⟩
    refine mem_firstOccurrences_of_mem (fun d hd hname => ?_) ((hrouted c).2 ⟨hmem, hc⟩)
      (by simpa using hne)
    exact List.inj_on_of_nodup_map g.distinct ((hrouted d).1 hd).2 hc hname

/-- A class that is found before another one has a route before all routes of the other one. -/
lemma pairwise_searchOrder (hn : n ∈ g.names) :
    (g.searchOrder n).Pairwise fun c d =>
      ∃ r, g.LeadsTo n r c.name ∧ ∀ r', g.LeadsTo n r' d.name → r.Before r' := by
  have hcanonical := canonical_of_mem_names hn
  have hfirst := pairwise_firstOccurrences (g.pairwise_routed n) [n]
  rw [← searchOrder_eq hn] at hfirst
  refine hfirst.imp_of_mem fun _ hd ⟨r, hr, hbefore⟩ => ?_
  refine ⟨r, leadsTo_of_mem_routes ((mem_routed hcanonical).1 hr).1, fun r' hr' => ?_⟩
  obtain ⟨r'', hmem, hle⟩ := exists_mem_routes hr'
  have hlt := hbefore r'' ((mem_routed hcanonical).2 ⟨hmem, mem_classes_of_mem_searchOrder hd⟩)
  rcases hle with rfl | hle
  · exact hlt
  · exact hlt.trans hle

/-- The search order of a class lists once each the other classes that can be reached from it by parents
alone, or by parents, one mixin and parents again, in the order of the least routes that lead to them. -/
theorem searchOrder_lists_reachable (hn : n ∈ g.names) :
    ((g.searchOrder n).map DocClass.name).Nodup ∧
    (∀ c, c ∈ g.searchOrder n ↔ c ∈ g.classes ∧ c.name ≠ n ∧
      (Relation.TransGen g.ParentEdge n c.name ∨
        ∃ o m, g.ParentReach n o ∧ m ∈ g.mixinsOf o ∧ g.ParentReach m c.name)) ∧
    (g.searchOrder n).Pairwise fun c d =>
      ∃ r, g.LeadsTo n r c.name ∧ ∀ r', g.LeadsTo n r' d.name → r.Before r' := by
  refine ⟨nodup_firstOccurrences _ _, fun c => ?_, pairwise_searchOrder hn⟩
  rw [mem_searchOrder_iff hn, mem_map_snd_routes_iff, ParentReach,
    Relation.reflTransGen_iff_eq_or_transGen]
  tauto

/-- Parents go round between two classes, one of which is known by another name. Mixins lead out of the
graph, back to the class itself, and to a class that is an ancestor too. -/
def roundabout : ClassGraph where
  classes := [
    { name := "Form", parent := some "OldCanvas", mixins := ["Floating", "Missing", "Canvas"] },
    { name := "Canvas", parent := some "Box", mixins := ["Styled"], alternateNames := ["OldCanvas"] },
    { name := "Box", parent := some "Canvas", mixins := ["Form", "Hidden", "Movable"] },
    { name := "Movable" }, { name := "Hidden" }, { name := "Styled", parent := some "Missing" },
    { name := "Floating", parent := some "Styled" }]
  cutMixins := [("Box", "Hidden")]
  distinct := by decide

theorem searchOrder_lists_reachable_roundabout :
    "Form" ∈ roundabout.names ∧
    (roundabout.searchOrder "Form").map DocClass.name =
      ["Canvas", "Box", "Floating", "Styled", "Movable"] ∧
    (∀ c, c ∈ roundabout.searchOrder "Form" ↔ c ∈ roundabout.classes ∧ c.name ≠ "Form" ∧
      (Relation.TransGen roundabout.ParentEdge "Form" c.name ∨
        ∃ o m, roundabout.ParentReach "Form" o ∧ m ∈ roundabout.mixinsOf o ∧
          roundabout.ParentReach m c.name)) ∧
    (roundabout.searchOrder "Form").Pairwise fun c d =>
      ∃ r, roundabout.LeadsTo "Form" r c.name ∧
        ∀ r', roundabout.LeadsTo "Form" r' d.name → r.Before r' := by
  have hn : "Form" ∈ roundabout.names := by decide
  obtain ⟨-, hmem, hordered⟩ := searchOrder_lists_reachable hn
  exact ⟨hn, by cbv, hmem, hordered⟩

end DocGraph.ClassGraph
