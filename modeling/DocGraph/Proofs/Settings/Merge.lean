import DocGraph.Proofs.Outcome
import DocGraph.Proofs.Value.Fields
import DocGraph.Proofs.Value.Sameness
import DocGraph.Settings.Merge
import Mathlib.Data.Set.List

/-!
# What merged settings hold

Settings that are laid over others decide, key by key, about what is held afterwards. A key that only one
side has keeps what it holds. One that both have comes to hold what laying the one value over the other
gives, and if that fails for some key, the settings cannot be merged.
-/

namespace DocGraph

namespace Settings

open Value

variable {ps qs rs : List (Scalar × Value)} {p : Scalar × Value} {key : Scalar}
  {v old new : Value} {e : Fault}

/-! ### Names of external classes -/

lemma exists_eq_map_text {xs : List Value} (h : ∀ x ∈ xs, ∃ n, x = .text n) :
    ∃ ns : List String, ns.map Value.text = xs := by
  change xs ∈ Set.range (List.map Value.text)
  rw [Set.range_list_map]
  exact fun x hx => (h x hx).imp fun _ hn => hn.symm

lemma scalar?_eq_ok_iff {s : Scalar} : v.scalar? = .ok s ↔ v = .scalar s := by
  cases v <;> simp [Value.scalar?]

/-- The scalars of values are the ones that the values are. -/
lemma mapM_scalar?_eq_ok_iff {xs : List Value} {ss : List Scalar} :
    xs.mapM Value.scalar? = .ok ss ↔ xs = ss.map Value.scalar := by
  simp only [mapM_eq_ok_iff, scalar?_eq_ok_iff]
  rw [← List.forall₂_map_right_iff (R := Eq) (f := Value.scalar), List.forall₂_eq_eq_eq]

/-! ### Values -/

@[simp] lemma mergeValue_scalar (key : Scalar) (v : Value) (s : Scalar) :
    mergeValue key v (.scalar s) = .ok v := by
  rw [mergeValue]
  all_goals simp

lemma mergeValue_list (key : Scalar) (v : Value) (xs : List Value) :
    mergeValue key v (.list xs) = match v.opened with
      | .list ys => if key.same externalKey then unite xs ys else .ok v
      | _ => .ok v := by
  unfold mergeValue
  cases v.opened <;> rfl

lemma mergeValue_map (key : Scalar) (v : Value) (ps : List (Scalar × Value)) :
    mergeValue key v (.map ps) = match v.opened with
      | .map qs => Value.map <$> mergePairs ps qs
      | _ => .ok v := by
  rw [mergeValue]
  cases v.opened with
  | map qs =>
    simp only [mergePairs]
    cases mergeHeld qs ps <;> rfl
  | _ => rfl

/-- Of the key it matters only what it stands for. -/
lemma mergeValue_congr {key' : Scalar} (h : key.same key' = true) (v old : Value) :
    mergeValue key v old = mergeValue key' v old := by
  cases old with
  | map ps => rw [mergeValue_map, mergeValue_map]
  | list xs => rw [mergeValue_list, mergeValue_list, Scalar.same_left_congr externalKey h]
  | _ => simp [mergeValue]

/-! ### Keys -/

/-- What the key of a pair comes to hold when pairs are laid over that one. -/
def laidOver (qs : List (Scalar × Value)) (p : Scalar × Value) : Except Fault Value :=
  match find? qs p.1 with
  | some v => mergeValue p.1 v p.2
  | none => .ok p.2

lemma laidOver_congr {key' : Scalar} (h : key.same key' = true) :
    laidOver qs (key, old) = laidOver qs (key', old) := by
  simp only [laidOver, find?_congr qs h, mergeValue_congr h]

lemma mergeHeld_eq_mapM (qs ps : List (Scalar × Value)) :
    mergeHeld qs ps = ps.mapM fun p => (p.1, ·) <$> laidOver qs p := by
  induction ps with
  | nil => rfl
  | cons p ps ih =>
    obtain ⟨key, old⟩ := p
    rw [mergeHeld, List.mapM_cons, ih]
    cases h : find? qs key with
    | none =>
      simp only [laidOver, h]
      rfl
    | some v =>
      simp only [laidOver, h]
      cases mergeValue key v old <;> rfl

lemma mergeHeld_eq_ok_iff :
    mergeHeld qs ps = .ok rs ↔
      List.Forall₂ (fun p r => ∃ new, laidOver qs p = .ok new ∧ (p.1, new) = r) ps rs := by
  rw [mergeHeld_eq_mapM, mapM_eq_ok_iff]
  simp only [map_eq_ok]

/-- Pairs that cannot be laid over others meet one that they cannot be laid over. -/
lemma exists_of_mergeHeld_eq_error (h : mergeHeld qs ps = .error e) :
    ∃ p ∈ ps, laidOver qs p = .error e := by
  rw [mergeHeld_eq_mapM] at h
  obtain ⟨p, hp, h⟩ := exists_of_mapM_eq_error h
  exact ⟨p, hp, map_eq_error.1 h⟩

lemma exists_mergeHeld_eq_error (hp : p ∈ ps) (h : laidOver qs p = .error e) :
    ∃ e', mergeHeld qs ps = .error e' := by
  rw [mergeHeld_eq_mapM]
  exact exists_mapM_eq_error hp (map_eq_error.2 h)

/-- A key that is held comes to hold what is laid over it. -/
lemma find?_of_mergeHeld (h : mergeHeld qs ps = .ok rs) (hp : find? ps key = some old) :
    ∃ new, find? rs key = some new ∧ laidOver qs (key, old) = .ok new := by
  rw [mergeHeld_eq_ok_iff] at h
  induction h with
  | nil => simp [find?] at hp
  | @cons p r ps rs hr _ ih =>
    obtain ⟨key', held⟩ := p
    obtain ⟨new, hnew, rfl⟩ := hr
    rw [find?_cons] at hp ⊢
    by_cases hkey : key'.same key = true
    · rw [if_pos hkey] at hp ⊢
      obtain rfl := Option.some.inj hp
      exact ⟨new, rfl, laidOver_congr hkey ▸ hnew⟩
    · rw [if_neg hkey] at hp ⊢
      exact ih hp

lemma find?_of_mergeHeld_eq_none (h : mergeHeld qs ps = .ok rs) (hp : find? ps key = none) :
    find? rs key = none := by
  rw [mergeHeld_eq_ok_iff] at h
  induction h with
  | nil => rfl
  | @cons p r ps rs hr _ ih =>
    obtain ⟨key', held⟩ := p
    obtain ⟨new, -, rfl⟩ := hr
    rw [find?_cons] at hp ⊢
    by_cases hkey : key'.same key = true
    · simp [hkey] at hp
    · rw [if_neg hkey] at hp ⊢
      exact ih hp

lemma map_fst_of_mergeHeld (h : mergeHeld qs ps = .ok rs) : rs.map Prod.fst = ps.map Prod.fst := by
  rw [mergeHeld_eq_ok_iff] at h
  induction h with
  | nil => rfl
  | cons hr _ ih =>
    obtain ⟨new, -, rfl⟩ := hr
    rw [List.map_cons, List.map_cons, ih]

lemma find?_newPairs_of_eq_none (hp : find? ps key = none) :
    find? (newPairs ps qs) key = find? qs key := by
  induction qs with
  | nil => rfl
  | cons q qs ih =>
    obtain ⟨key', v⟩ := q
    rw [newPairs, List.filter_cons, ← newPairs]
    by_cases hkey : key'.same key = true
    · rw [if_pos (by simp [find?_congr ps hkey, hp]), find?_cons, find?_cons, if_pos hkey, if_pos hkey]
    · rw [find?_cons, if_neg hkey, ← ih]
      split
      · rw [find?_cons, if_neg hkey]
      · rfl

/-! ### Merged pairs -/

lemma mergePairs_eq_ok_iff :
    mergePairs ps qs = .ok rs ↔ ∃ held, mergeHeld qs ps = .ok held ∧ held ++ newPairs ps qs = rs := by
  simp [mergePairs]

lemma mergePairs_eq_error_iff : mergePairs ps qs = .error e ↔ mergeHeld qs ps = .error e := by
  simp [mergePairs]

/-- Pairs can be merged if each one can have the others laid over it. -/
lemma exists_mergePairs (h : ∀ p ∈ ps, ∃ new, laidOver qs p = .ok new) :
    ∃ rs, mergePairs ps qs = .ok rs := by
  cases hmerge : mergePairs ps qs with
  | ok rs => exact ⟨rs, rfl⟩
  | error e =>
    obtain ⟨p, hp, herror⟩ := exists_of_mergeHeld_eq_error (mergePairs_eq_error_iff.1 hmerge)
    obtain ⟨new, hnew⟩ := h p hp
    cases hnew.symm.trans herror

/-- A key of the settings below holds what is laid over it. -/
lemma find?_mergePairs (h : mergePairs ps qs = .ok rs) (hp : find? ps key = some old) :
    ∃ new, find? rs key = some new ∧ laidOver qs (key, old) = .ok new := by
  obtain ⟨held, hheld, rfl⟩ := mergePairs_eq_ok_iff.1 h
  obtain ⟨new, hnew, hlaid⟩ := find?_of_mergeHeld hheld hp
  exact ⟨new, by rw [find?_append, hnew, Option.some_or], hlaid⟩

/-- A key of both sides holds what laying its one value over the other gives. -/
lemma find?_mergePairs_of_both (h : mergePairs ps qs = .ok rs) (hp : find? ps key = some old)
    (hq : find? qs key = some v) : ∃ new, find? rs key = some new ∧ mergeValue key v old = .ok new := by
  simpa only [laidOver, hq] using find?_mergePairs h hp

lemma find?_mergePairs_of_below (h : mergePairs ps qs = .ok rs) (hp : find? ps key = some old)
    (hq : find? qs key = none) : find? rs key = some old := by
  obtain ⟨new, hnew, hlaid⟩ := find?_mergePairs h hp
  simp only [laidOver, hq] at hlaid
  rw [hnew, Except.ok.inj hlaid]

/-- Any other key holds what the settings above say. -/
lemma find?_mergePairs_of_eq_none (h : mergePairs ps qs = .ok rs) (hp : find? ps key = none) :
    find? rs key = find? qs key := by
  obtain ⟨held, hheld, rfl⟩ := mergePairs_eq_ok_iff.1 h
  rw [find?_append, find?_of_mergeHeld_eq_none hheld hp, Option.none_or, find?_newPairs_of_eq_none hp]

/-- The keys of the settings below keep their places, and those that only the settings above have
follow. -/
lemma map_fst_mergePairs (h : mergePairs ps qs = .ok rs) :
    rs.map Prod.fst =
      ps.map Prod.fst ++ (qs.map Prod.fst).filter fun key => (find? ps key).isNone := by
  obtain ⟨held, hheld, rfl⟩ := mergePairs_eq_ok_iff.1 h
  rw [List.map_append, map_fst_of_mergeHeld hheld, newPairs, List.filter_map]
  rfl

/-! ### Scalars below -/

@[simp] lemma laidOver_scalar (qs : List (Scalar × Value)) (key s : Scalar) :
    laidOver qs (key, .scalar s) = .ok ((find? qs key).getD (.scalar s)) := by
  cases h : find? qs key <;> simp [laidOver, h]

/-- Anything can be laid over pairs that hold scalars only. -/
lemma exists_mergePairs_of_scalars (qs : List (Scalar × Value)) (h : ∀ p ∈ ps, ∃ s, p.2 = .scalar s) :
    ∃ rs, mergePairs ps qs = .ok rs := by
  refine exists_mergePairs fun p hp => ?_
  obtain ⟨key, old⟩ := p
  obtain ⟨s, rfl⟩ := h _ hp
  exact ⟨_, laidOver_scalar qs key s⟩

lemma exists_laidOver_of_scalars (qs : List (Scalar × Value)) (key : Scalar)
    (h : ∀ p ∈ ps, ∃ s, p.2 = .scalar s) : ∃ w, laidOver qs (key, .map ps) = .ok w := by
  rw [laidOver]
  cases find? qs key with
  | none => exact ⟨_, rfl⟩
  | some v =>
    simp only [mergeValue_map]
    cases v.opened with
    | map qs' =>
      obtain ⟨rs, hrs⟩ := exists_mergePairs_of_scalars qs' h
      exact ⟨.map rs, by simp [hrs]⟩
    | _ => exact ⟨v, rfl⟩

end Settings

end DocGraph
