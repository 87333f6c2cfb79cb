import DocGraph.Name
import Mathlib.Tactic.Common

/-!
# Packages of a name

A full name is its package, a dot and its short name, or the short name alone. The package is a name
again, and so on: the packages around a class are got by splitting over and over again, and their short
names, together with that of the class, give the full name of the class. That goes wrong only for a name
that begins with a dot, since a package with the empty name is none.

Each beginning of the row of packages around a class is the row of packages around its own last one, so a
row of packages is known from the texts along it.
-/

namespace DocGraph.Name

variable {ys zs : List (List Char)} {name : String} {names : List String}

/-! ### Rows of segments -/

lemma not_mem_of_mem_segments {s t : List Char} (h : t ∈ segments s) : '.' ∉ t := by
  rw [segments, List.splitOn_eq_splitOnP] at h
  induction s generalizing t with
  | nil =>
    rw [List.splitOnP_nil, List.mem_singleton] at h
    exact h ▸ List.not_mem_nil
  | cons c s ih =>
    rw [List.splitOnP_cons_eq_if_modifyHead] at h
    split at h
    · rcases List.mem_cons.1 h with rfl | h
      · simp
      · exact ih h
    next hc =>
      obtain ⟨u, us, hu⟩ := List.exists_cons_of_ne_nil (List.splitOnP_ne_nil (· == '.') s)
      rw [hu] at h ih
      rcases List.mem_cons.1 h with rfl | h
      · rw [List.mem_cons, not_or]
        exact ⟨fun h => hc (by simp [← h]), ih (List.mem_cons_self ..)⟩
      · exact ih (List.mem_cons_of_mem _ h)

/-- The name whose segments are given from the last one to the first. -/
def ofReversed (ys : List (List Char)) : String := String.ofList (joinSegments ys.reverse)

/-- Segments contain no dots. -/
def IsSegmented (ys : List (List Char)) : Prop := ∀ s ∈ ys, '.' ∉ s

lemma ofReversed_eq (ys : List (List Char)) :
    ofReversed ys = ".".intercalate (ys.reverse.map String.ofList) := by
  rw [ofReversed, ← String.toList_inj, String.toList_intercalate, String.toList_ofList, List.map_map]
  simp [joinSegments, Function.comp_def]

lemma ofReversed_append (hys : ys ≠ []) (hzs : zs ≠ []) :
    ofReversed (ys ++ zs) = ofReversed zs ++ "." ++ ofReversed ys := by
  rw [ofReversed_eq, ofReversed_eq, ofReversed_eq, List.reverse_append, List.map_append,
    String.intercalate_append_of_ne_nil (by simpa using hzs) (by simpa using hys)]

/-- The segments of a name from the last one to the first. -/
def reversedSegments (name : String) : List (List Char) := (segments name.toList).reverse

lemma reversedSegments_ne_nil (name : String) : reversedSegments name ≠ [] := by
  simp [reversedSegments, segments, List.splitOn_ne_nil]

lemma isSegmented_reversedSegments (name : String) : IsSegmented (reversedSegments name) :=
  fun _ hs => not_mem_of_mem_segments (List.mem_reverse.1 hs)

@[simp] lemma ofReversed_reversedSegments (name : String) :
    ofReversed (reversedSegments name) = name := by
  rw [ofReversed, reversedSegments, List.reverse_reverse, joinSegments, segments,
    List.intercalate_splitOn, String.ofList_toList]

/-- A name has the segments that it is made of. -/
lemma reversedSegments_ofReversed (h : IsSegmented ys) (hne : ys ≠ []) :
    reversedSegments (ofReversed ys) = ys := by
  rw [reversedSegments, ofReversed, String.toList_ofList, segments, joinSegments,
    List.splitOn_intercalate, List.reverse_reverse]
  · exact fun s hs => h s (List.mem_reverse.1 hs)
  · simpa using hne

/-! ### The package of a name -/

lemma shortCount_pos (h : ys ≠ []) : 0 < shortCount ys := by
  cases ys with
  | nil => exact absurd rfl h
  | cons s before => exact Nat.succ_pos _

lemma short_eq (name : String) :
    short name = ofReversed ((reversedSegments name).take (shortCount (reversedSegments name))) := rfl

lemma package_eq (name : String) :
    package name = ofReversed ((reversedSegments name).drop (shortCount (reversedSegments name))) := rfl

lemma packages_eq (name : String) :
    packages name =
      packagesAround ((reversedSegments name).drop (shortCount (reversedSegments name))) := by
  rw [packages, splitSegments, List.reverse_reverse, reversedSegments]

/-- A name is its package, a dot and its short name, unless it is the short name alone. -/
lemma eq_short_or_eq_package_append (name : String) :
    package name = "" ∧ name = short name ∨ name = package name ++ "." ++ short name := by
  rw [package_eq, short_eq]
  generalize hys : reversedSegments name = ys
  have hne : ys ≠ [] := hys ▸ reversedSegments_ne_nil name
  have hname : name = ofReversed ys := by rw [← hys, ofReversed_reversedSegments]
  by_cases hz : ys.drop (shortCount ys) = []
  · left
    rw [hz, List.take_of_length_le (List.drop_eq_nil_iff.1 hz)]
    exact ⟨rfl, hname⟩
  · right
    have ht : ys.take (shortCount ys) ≠ [] := by
      have := shortCount_pos hne
      simp only [ne_eq, List.take_eq_nil_iff, hne, or_false]
      omega
    rw [← ofReversed_append ht hz, List.take_append_drop, hname]

lemma short_eq_self (hp : package name = "") (h : name.toList.head? ≠ some '.') :
    short name = name := by
  rcases eq_short_or_eq_package_append name with ⟨-, hn⟩ | hn
  · exact hn.symm
  · rw [hn, hp] at h
    simp at h

lemma eq_package_append (hp : package name ≠ "") : name = package name ++ "." ++ short name :=
  (eq_short_or_eq_package_append name).resolve_left fun h => hp h.1

lemma length_package_lt (hp : package name ≠ "") : (package name).length < name.length := by
  conv_rhs => rw [eq_package_append hp]
  simp only [String.length_append]
  have : ".".length = 1 := rfl
  omega

lemma head?_package (hp : package name ≠ "") :
    (package name).toList.head? = name.toList.head? := by
  conv_rhs => rw [eq_package_append hp]
  rw [String.toList_append, String.toList_append, List.append_assoc, List.head?_append, Option.or_of_isSome]
  simpa using hp

/-! ### The packages around a name -/

lemma packages_eq_nil (hp : package name = "") : packages name = [] := by
  rw [package_eq] at hp
  rw [packages_eq]
  generalize (reversedSegments name).drop (shortCount (reversedSegments name)) = zs at hp
  cases zs with
  | nil => rw [packagesAround]
  | cons s before => rw [packagesAround]; simp_all [ofReversed]

/-- The packages around a name are those around its package, and the package. -/
lemma packages_eq_append (hp : package name ≠ "") :
    packages name = packages (package name) ++ [package name] := by
  have hsegs : reversedSegments (package name) =
      (reversedSegments name).drop (shortCount (reversedSegments name)) := by
    rw [package_eq, reversedSegments_ofReversed]
    · exact fun s hs => isSegmented_reversedSegments name s (List.mem_of_mem_drop hs)
    · intro hz
      rw [package_eq, hz] at hp
      exact hp rfl
  rw [packages_eq, packages_eq, ← hsegs]
  have hname := ofReversed_reversedSegments (package name)
  generalize reversedSegments (package name) = zs at hname
  cases zs with
  | nil => exact absurd hname.symm hp
  | cons s before =>
    rw [packagesAround]
    simp_all [ofReversed]

/-- Induction from a name to its package. -/
lemma packages_induction {motive : String → Prop} (root : ∀ name, package name = "" → motive name)
    (inside : ∀ name, package name ≠ "" → motive (package name) → motive name) (name : String) :
    motive name :=
  if hp : package name = "" then root name hp
  else inside name hp (packages_induction root inside (package name))
termination_by name.length
decreasing_by exact length_package_lt hp

/-- The short names on the way to a name give the name. -/
lemma intercalate_packages (h : name.toList.head? ≠ some '.') :
    ".".intercalate ((packages name ++ [name]).map short) = name := by
  induction name using packages_induction with
  | root name hp => simp [packages_eq_nil hp, short_eq_self hp h]
  | inside name hp ih =>
    have hdot : (package name).toList.head? ≠ some '.' := by rwa [head?_package hp]
    rw [packages_eq_append hp, List.map_append, List.map_singleton,
      String.intercalate_append_of_ne_nil (by simp) (by simp), ih hdot,
      String.intercalate_singleton, ← eq_package_append hp]

/-- The packages on the way to a name down to any one of them are the way to that one. -/
lemma eq_packages_append_of_prefix (h : name.toList.head? ≠ some '.') (hne : names ≠ [])
    (hpre : names <+: packages name) :
    ∃ n : String, n.toList.head? ≠ some '.' ∧ names = packages n ++ [n] := by
  induction name using packages_induction with
  | root name hp =>
    rw [packages_eq_nil hp, List.prefix_nil] at hpre
    exact absurd hpre hne
  | inside name hp ih =>
    have hdot : (package name).toList.head? ≠ some '.' := by rwa [head?_package hp]
    rw [packages_eq_append hp, List.prefix_concat_iff] at hpre
    rcases hpre with rfl | hpre
    · exact ⟨_, hdot, rfl⟩
    · exact ih hdot hpre

end DocGraph.Name
