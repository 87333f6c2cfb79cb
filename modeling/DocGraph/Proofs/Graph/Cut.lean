import DocGraph.Proofs.Graph.Naming

/-!
# Cuts, one after the other

A class is without its parent if it was cut off under its full name, and without a mixin if that edge was
cut under both full names. A cut that is asked for under an alternate name is kept under that name, and as
edges are looked up by full names, it takes away nothing.
-/

namespace DocGraph.ClassGraph

/-- A cut as it is asked for. -/
inductive Cut
  | parent (n : String)
  | mixin (n m : String)
  deriving Repr, DecidableEq

/-- The graph after a cut. -/
def cut (g : ClassGraph) : Cut → ClassGraph
  | .parent n => g.cutParent n
  | .mixin n m => g.cutMixin n m

/-- The graph after some cuts, one after the other. -/
def cutAll (g : ClassGraph) (cuts : List Cut) : ClassGraph := cuts.foldl cut g

variable {g : ClassGraph} {m n x y : String} {k : Cut} {cuts : List Cut}

/-! ### One cut -/

@[simp] lemma find?_cut (g : ClassGraph) (k : Cut) (n : String) : (g.cut k).find? n = g.find? n := by
  cases k <;> rfl

@[simp] lemma names_cut (g : ClassGraph) (k : Cut) : (g.cut k).names = g.names := by
  cases k <;> rfl

@[simp] lemma canonical_cut (g : ClassGraph) (k : Cut) (n : String) :
    (g.cut k).canonical n = g.canonical n := by
  rw [canonical, canonical, find?_cut]

/-- A cut takes the parent of the class whose full name it names. -/
lemma parentOf_cut (g : ClassGraph) (k : Cut) (x : String) :
    (g.cut k).parentOf x = if k = .parent (g.canonical x) then none else g.parentOf x := by
  cases k with
  | mixin n m => rfl
  | parent n =>
    simp only [cut, Cut.parent.injEq]
    by_cases hcut : n ∈ g.cutParents
    · have heq : g.cutParent n = g := by simp [cutParent, hcut]
      rw [heq]
      split_ifs with hn
      · by_contra hparent
        obtain ⟨p, hp⟩ := Option.ne_none_iff_exists'.1 hparent
        exact not_mem_cutParents hp (hn ▸ hcut)
      · rfl
    · have heq : g.cutParent n = g.withoutParents [n] := by simp [cutParent, withoutParents, hcut]
      rw [heq, parentOf_withoutParents]
      simp only [List.mem_singleton, eq_comm]

/-- A cut takes one mixin from the class if it names both by their full names. -/
lemma mixinsOf_cut (g : ClassGraph) (k : Cut) (x : String) :
    (g.cut k).mixinsOf x = (g.mixinsOf x).filter fun y => k ≠ .mixin (g.canonical x) y := by
  cases k with
  | parent n =>
    have heq : (g.cut (.parent n)).mixinsOf x = g.mixinsOf x := rfl
    rw [heq, eq_comm, List.filter_eq_self]
    simp
  | mixin n m =>
    rw [cut, mixinsOf_cutMixin]
    refine List.filter_congr fun y _ => ?_
    simp [eq_comm]

/-! ### Any cuts -/

lemma cutAll_cons (g : ClassGraph) (k : Cut) (cuts : List Cut) :
    g.cutAll (k :: cuts) = (g.cut k).cutAll cuts := rfl

@[simp] lemma find?_cutAll (g : ClassGraph) (cuts : List Cut) (n : String) :
    (g.cutAll cuts).find? n = g.find? n := by
  induction cuts generalizing g with
  | nil => rfl
  | cons k cuts ih => rw [cutAll_cons, ih, find?_cut]

@[simp] lemma canonical_cutAll (g : ClassGraph) (cuts : List Cut) (n : String) :
    (g.cutAll cuts).canonical n = g.canonical n := by
  rw [canonical, canonical, find?_cutAll]

@[simp] lemma names_cutAll (g : ClassGraph) (cuts : List Cut) : (g.cutAll cuts).names = g.names := by
  induction cuts generalizing g with
  | nil => rfl
  | cons k cuts ih => rw [cutAll_cons, ih, names_cut]

/-- A class keeps its parent unless one of the cuts named the class by its full name. -/
theorem parentOf_cutAll (g : ClassGraph) (cuts : List Cut) (x : String) :
    (g.cutAll cuts).parentOf x = if .parent (g.canonical x) ∈ cuts then none else g.parentOf x := by
  induction cuts generalizing g with
  | nil => simp [cutAll]
  | cons k cuts ih =>
    rw [cutAll_cons, ih, canonical_cut, parentOf_cut]
    by_cases hk : k = .parent (g.canonical x)
    · simp [hk]
    · simp [hk, Ne.symm hk]

/-- A class keeps the mixins that none of the cuts named, with the class, by their full names. -/
theorem mixinsOf_cutAll (g : ClassGraph) (cuts : List Cut) (x : String) :
    (g.cutAll cuts).mixinsOf x = (g.mixinsOf x).filter fun y => .mixin (g.canonical x) y ∉ cuts := by
  induction cuts generalizing g with
  | nil => simp [cutAll]
  | cons k cuts ih =>
    rw [cutAll_cons, ih, canonical_cut, mixinsOf_cut, List.filter_filter]
    refine List.filter_congr fun y _ => ?_
    simp [List.mem_cons, not_or, eq_comm, Bool.and_comm]

/-! ### Names in cuts -/

/-- A name that leads to a class is its full name if it stands for itself. -/
lemma canonical_eq_self_iff (h : (g.find? n).isSome) : g.canonical n = n ↔ n ∈ g.names := by
  obtain ⟨c, hc⟩ := Option.isSome_iff_exists.1 h
  constructor
  · intro hn
    exact hn ▸ canonical_mem_names hc
  · exact canonical_of_mem_names

/-- A name under which a class is cut off is its full name, or the cut takes nothing. -/
lemma parentOf_cut_parent (h : (g.find? n).isSome) :
    (g.cut (.parent n)).parentOf n = if n ∈ g.names then none else g.parentOf n := by
  rw [parentOf_cut]
  simp only [Cut.parent.injEq, ← canonical_eq_self_iff h, eq_comm]

/-- Mixins are given under their full names, if they have one. -/
lemma canonical_of_mem_mixinsOf (h : y ∈ g.mixinsOf x) : g.canonical y = y := by
  obtain ⟨c, -, hy⟩ := (mem_mixinsOf.1 h).1
  obtain ⟨m, -, rfl⟩ := List.mem_map.1 hy
  exact canonical_canonical g m

/-- The same for an edge to a mixin, which has two names. -/
lemma mixinsOf_cut_mixin (hn : (g.find? n).isSome) (hm : (g.find? m).isSome) :
    (g.cut (.mixin n m)).mixinsOf n =
      if n ∈ g.names ∧ m ∈ g.names then (g.mixinsOf n).filter (· ≠ g.canonical m) else g.mixinsOf n := by
  rw [mixinsOf_cut]
  split_ifs with h
  · obtain ⟨hn, hm⟩ := h
    rw [canonical_of_mem_names hn, canonical_of_mem_names hm]
    simp [eq_comm]
  · rw [List.filter_eq_self]
    intro y hy
    rw [decide_eq_true_eq]
    intro hk
    obtain ⟨hcanonical, rfl⟩ := Cut.mixin.inj hk
    apply h
    exact ⟨(canonical_eq_self_iff hn).1 hcanonical.symm,
      (canonical_eq_self_iff hm).1 (canonical_of_mem_mixinsOf hy)⟩

/-- A cut leaves the parents of all classes but the one it names. -/
lemma parentOf_cut_of_ne (hx : g.canonical x ≠ g.canonical n) :
    (g.cut (.parent n)).parentOf x = g.parentOf x := by
  rw [parentOf_cut, if_neg]
  intro hk
  rw [Cut.parent.inj hk, canonical_canonical] at hx
  exact hx rfl

lemma mixinsOf_cut_of_ne (hx : g.canonical x ≠ g.canonical n) :
    (g.cut (.mixin n m)).mixinsOf x = g.mixinsOf x := by
  rw [mixinsOf_cut, List.filter_eq_self]
  intro y _
  rw [decide_eq_true_eq]
  intro hk
  rw [(Cut.mixin.inj hk).1, canonical_canonical] at hx
  exact hx rfl

/-- After any cuts, one more cut takes the parent from a class if it names the class by its full name, and
a mixin if it names both by their full names. Under an alternate name it takes nothing. Nothing is ever
taken from any other class, and the other mixins keep their order. -/
theorem cut_takes_effect_iff (g : ClassGraph) (cuts : List Cut) (hn : (g.find? n).isSome)
    (hm : (g.find? m).isSome) :
    let b := g.cutAll cuts
    ((b.cut (.parent n)).parentOf n = none ↔ n ∈ g.names ∨ b.parentOf n = none) ∧
    (∀ x, g.canonical x ≠ g.canonical n → (b.cut (.parent n)).parentOf x = b.parentOf x) ∧
    (∀ x, (b.cut (.parent n)).mixinsOf x = b.mixinsOf x) ∧
    (g.canonical m ∉ (b.cut (.mixin n m)).mixinsOf n ↔
      n ∈ g.names ∧ m ∈ g.names ∨ g.canonical m ∉ b.mixinsOf n) ∧
    ((b.cut (.mixin n m)).mixinsOf n).filter (· ≠ g.canonical m) =
      (b.mixinsOf n).filter (· ≠ g.canonical m) ∧
    (∀ x, g.canonical x ≠ g.canonical n → (b.cut (.mixin n m)).mixinsOf x = b.mixinsOf x) ∧
    ∀ x, (b.cut (.mixin n m)).parentOf x = b.parentOf x := by
  intro b
  have hcanonical : ∀ x, b.canonical x = g.canonical x := canonical_cutAll g cuts
  have hparent := parentOf_cut_parent (g := b) (n := n) (by rwa [find?_cutAll])
  have hmixins :=
    mixinsOf_cut_mixin (g := b) (n := n) (m := m) (by rwa [find?_cutAll]) (by rwa [find?_cutAll])
  rw [names_cutAll] at hparent hmixins
  rw [hcanonical] at hmixins
  refine ⟨?_, ?_, fun x => rfl, ?_, ?_, ?_, fun x => rfl⟩
  · rw [hparent]
    split_ifs with h <;> simp [h]
  · intro x hx
    exact parentOf_cut_of_ne (by rwa [hcanonical, hcanonical])
  · rw [hmixins]
    split_ifs with h <;> simp [h]
  · rw [hmixins]
    split_ifs with h
    · rw [List.filter_filter]
      simp
    · rfl
  · intro x hx
    exact mixinsOf_cut_of_ne (by rwa [hcanonical, hcanonical])

/-- A dialog that was called a box, with a style that was called a look. -/
def styledGraph : ClassGraph where
  classes := [
    { name := "Dialog", alternateNames := ["Box"], parent := some "Base", mixins := ["Look", "Base"] },
    { name := "Style", alternateNames := ["Look"] },
    { name := "Base" }]
  distinct := by decide

/-- A cut under an alternate name may take nothing. -/
theorem not_cut_takes_effect :
    ¬∀ (g : ClassGraph) (cuts : List Cut) (n : String), (g.find? n).isSome →
      ((g.cutAll cuts).cut (.parent n)).parentOf n = none := by
  intro h
  have hcut := h styledGraph [] "Box" (by decide)
  exact absurd hcut (by decide)

theorem cut_takes_effect_iff_styled :
    let b := styledGraph.cutAll [.mixin "Dialog" "Base"]
    (styledGraph.find? "Box").isSome ∧ (styledGraph.find? "Look").isSome ∧
      (b.cut (.parent "Box")).parentOf "Box" ≠ none ∧ (b.cut (.parent "Dialog")).parentOf "Dialog" = none ∧
      "Style" ∈ (b.cut (.mixin "Box" "Look")).mixinsOf "Box" ∧
      "Style" ∉ (b.cut (.mixin "Dialog" "Style")).mixinsOf "Dialog" := by
  intro b
  have hbox : (styledGraph.find? "Box").isSome := by decide
  have hlook : (styledGraph.find? "Look").isSome := by decide
  obtain ⟨hparent, -, -, hmixin, -⟩ := cut_takes_effect_iff styledGraph [.mixin "Dialog" "Base"] hbox hlook
  obtain ⟨hparent', -, -, hmixin', -⟩ :=
    cut_takes_effect_iff (n := "Dialog") (m := "Style") styledGraph [.mixin "Dialog" "Base"]
      (by decide) (by decide)
  refine ⟨hbox, hlook, ?_, hparent'.2 (.inl (by decide)), ?_, hmixin'.2 (.inl (by decide))⟩
  · rw [Ne, hparent]
    decide
  · by_contra hnot
    exact absurd (hmixin.1 hnot) (by decide)

end DocGraph.ClassGraph
