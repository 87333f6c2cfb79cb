import DocGraph.Files.System
import Mathlib.Data.List.Basic
import Mathlib.Data.List.Lex
import Mathlib.Data.String.Basic
import Mathlib.Tactic.Common

/-!
# What is below a directory

The contents of a directory are its entries and what is below them. They are told by the names on the way
to them, and put in the order of these names, part by part. A document is told by the ending of its name.
-/

namespace DocGraph

/-! ### Contents of directories -/

namespace FileTree

variable {t u : FileTree} {es : List (String × FileTree)} {name : String} {ps : List String}

/-- Something is below a directory, at the end of some names. -/
inductive Below : FileTree → List String → FileTree → Prop
  | entry {es : List (String × FileTree)} {name : String} {t : FileTree} (h : (name, t) ∈ es) :
    Below (.directory es) [name] t
  | deeper {es : List (String × FileTree)} {name : String} {t u : FileTree} {ps : List String}
    (h : (name, t) ∈ es) (hbelow : Below t ps u) : Below (.directory es) (name :: ps) u

lemma below_directory_iff :
    Below (.directory es) ps u ↔
      ∃ e ∈ es, (ps = [e.1] ∧ e.2 = u) ∨ ∃ qs, ps = e.1 :: qs ∧ Below e.2 qs u := by
  constructor
  · rintro (h | ⟨h, hbelow⟩)
    · exact ⟨_, h, .inl ⟨rfl, rfl⟩⟩
    · exact ⟨_, h, .inr ⟨_, rfl, hbelow⟩⟩
  · rintro ⟨e, he, ⟨rfl, rfl⟩ | ⟨qs, rfl, hbelow⟩⟩
    · exact .entry he
    · exact .deeper he hbelow

@[simp] lemma not_below_file {s : Source} : ¬Below (.file s) ps u := by
  intro h
  cases h

@[simp] lemma not_below_empty : ¬Below (.directory []) ps u := by
  simp [below_directory_iff]

mutual

/-- The contents of a directory are what is below it. -/
theorem mem_descendants : (t : FileTree) → (ps : List String) → ps ∈ t.descendants ↔ ∃ u, t.Below ps u
  | .file s, ps => by
    simp [descendants]
  | .directory es, ps => by
    rw [descendants, mem_entryDescendants es ps]
    simp only [below_directory_iff]
    constructor
    · rintro ⟨e, he, rfl | ⟨qs, rfl, u, h⟩⟩
      · exact ⟨_, e, he, .inl ⟨rfl, rfl⟩⟩
      · exact ⟨u, e, he, .inr ⟨qs, rfl, h⟩⟩
    · rintro ⟨u, e, he, ⟨rfl, -⟩ | ⟨qs, rfl, h⟩⟩
      · exact ⟨e, he, .inl rfl⟩
      · exact ⟨e, he, .inr ⟨qs, rfl, u, h⟩⟩

theorem mem_entryDescendants : (es : List (String × FileTree)) → (ps : List String) →
    ps ∈ entryDescendants es ↔ ∃ e ∈ es, ps = [e.1] ∨ ∃ qs, ps = e.1 :: qs ∧ ∃ u, e.2.Below qs u
  | [], ps => by simp [entryDescendants]
  | (name, t) :: es, ps => by
    have hmap : ps ∈ t.descendants.map (name :: ·) ↔ ∃ qs, ps = name :: qs ∧ ∃ u, t.Below qs u := by
      simp only [List.mem_map, mem_descendants t, eq_comm, and_comm]
    rw [entryDescendants, List.cons_append, List.mem_cons, List.mem_append, hmap, mem_entryDescendants es ps,
      ← or_assoc, List.exists_mem_cons_iff]

end

end FileTree

/-! ### The order of paths -/

namespace FileSystem

/-- Paths are put in order part by part. -/
lemma partsAtMost_iff {ps qs : List String} : partsAtMost ps qs = true ↔ ps ≤ qs := by
  rw [← not_lt]
  induction ps generalizing qs with
  | nil => simp [partsAtMost]
  | cons p ps ih =>
    cases qs with
    | nil => simp [partsAtMost]
    | cons q qs =>
      rw [partsAtMost, List.cons_lt_cons_iff]
      split_ifs with h
      · simp [h, ih]
      · simp [Ne.symm h, lt_iff_le_and_ne, h]

end FileSystem

/-! ### Names of documents -/

namespace Path

/-- The ending of a name is what stands behind its last dot, if something stands on both sides of it. -/
lemma suffix_eq_iff {name : String} {ending : List Char} (hne : ending ≠ []) (hdot : '.' ∉ ending) :
    suffix name = String.ofList ('.' :: ending) ↔
      ∃ stem, stem ≠ [] ∧ name.toList = stem ++ '.' :: ending := by
  have hends : ∀ c ∈ ending.reverse, decide (c ≠ '.') = true := by
    intro c hc
    rw [decide_eq_true_eq]
    rintro rfl
    exact hdot (List.mem_reverse.1 hc)
  constructor
  · intro h
    rw [suffix] at h
    split_ifs at h with hempty
    · simp at h
    · rw [String.ofList_inj, List.cons.injEq] at h
      rw [Bool.or_eq_true, not_or, List.isEmpty_iff, List.isEmpty_iff] at hempty
      have hwhole :=
        List.takeWhile_append_dropWhile (p := fun c => decide (c ≠ '.')) (l := name.toList.reverse)
      have hhead := List.head?_dropWhile_not (fun c => decide (c ≠ '.')) name.toList.reverse
      cases hdrop : name.toList.reverse.dropWhile (fun c => decide (c ≠ '.')) with
      | nil => exact absurd (by rw [hdrop]; rfl) hempty.1
      | cons c stem =>
        rw [hdrop] at hempty hhead hwhole
        obtain rfl : c = '.' := by simpa using hhead
        refine ⟨stem.reverse, by simpa using hempty.1, ?_⟩
        rw [← List.reverse_inj, ← hwhole, ← h.2]
        simp
  · rintro ⟨stem, hstem, hname⟩
    have hreverse : name.toList.reverse = ending.reverse ++ '.' :: stem.reverse := by
      rw [hname]
      simp
    rw [suffix, hreverse]
    simp only [List.takeWhile_append_of_pos hends, List.dropWhile_append_of_pos hends]
    simp [hstem, hne]

lemma suffix_eq_append_iff (name ending : String) (hne : ending ≠ "") (hdot : '.' ∉ ending.toList) :
    suffix name = "." ++ ending ↔ ∃ stem, stem ≠ "" ∧ name = stem ++ ("." ++ ending) := by
  have hending : "." ++ ending = String.ofList ('.' :: ending.toList) := by
    rw [← String.toList_inj]
    simp
  rw [hending, suffix_eq_iff (by simpa using hne) hdot]
  constructor
  · rintro ⟨stem, hstem, hname⟩
    refine ⟨String.ofList stem, by simpa using hstem, ?_⟩
    rw [← String.toList_inj, hname]
    simp
  · rintro ⟨stem, hstem, rfl⟩
    exact ⟨stem.toList, by simpa using hstem, by simp⟩

end Path

namespace FileSystem

/-- Names of documents end in `.yml` or `.yaml`, and there is something before that. -/
def IsDocument (name : String) : Prop :=
  ∃ stem, stem ≠ "" ∧ (name = stem ++ ".yml" ∨ name = stem ++ ".yaml")

lemma isDocumentName_iff {name : String} : isDocumentName name = true ↔ IsDocument name := by
  have hyml : Path.suffix name = ".yml" ↔ ∃ stem, stem ≠ "" ∧ name = stem ++ ".yml" :=
    Path.suffix_eq_append_iff name "yml" (by decide) (by decide)
  have hyaml : Path.suffix name = ".yaml" ↔ ∃ stem, stem ≠ "" ∧ name = stem ++ ".yaml" :=
    Path.suffix_eq_append_iff name "yaml" (by decide) (by decide)
  rw [isDocumentName, Bool.or_eq_true, decide_eq_true_iff, decide_eq_true_iff, hyml, hyaml, IsDocument,
    ← exists_or]
  simp only [and_or_left]

end FileSystem

end DocGraph
