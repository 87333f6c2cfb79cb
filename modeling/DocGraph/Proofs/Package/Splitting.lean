import DocGraph.Proofs.Package.Segments
import Mathlib.Data.List.TakeWhile

/-!
# Where a name splits

The short name is the last segment of a name with the longest run of capitalized segments directly before
it, among which the first segment of the name does not count. What stands before is the package. Every name
with a dot in it is its package, a dot and its short name, whatever segments are empty, and every other
name is its short name.
-/

namespace DocGraph.Name

variable {s last last' : List Char} {pkg run before : List (List Char)} {name : String}

/-! ### Runs of capitalized segments -/

/-- A segment begins with an ASCII capital letter. -/
def BeginsCapital (s : List Char) : Prop := ∃ c ∈ s.head?, 'A' ≤ c ∧ c ≤ 'Z'

lemma isCapitalized_iff : isCapitalized s = true ↔ BeginsCapital s := by
  cases s <;> simp [isCapitalized, BeginsCapital]

/-- Segments are cut before some capitalized ones and the last one. The first segment of all may be the last
one, but it is not among the capitalized ones. -/
structure IsCut (ss pkg run : List (List Char)) (last : List Char) : Prop where
  eq : ss = pkg ++ run ++ [last]
  capital : ∀ s ∈ run, BeginsCapital s
  first : run ≠ [] → pkg ≠ []

/-- The capitalized segments before the last one, from the last to the first. -/
def capitalRun (before : List (List Char)) : List (List Char) :=
  before.dropLast.takeWhile isCapitalized

lemma capitalRun_prefix_self (before : List (List Char)) : capitalRun before <+: before :=
  (List.takeWhile_prefix _).trans (List.dropLast_prefix _)

lemma beginsCapital_of_mem_capitalRun (h : s ∈ capitalRun before) : BeginsCapital s :=
  isCapitalized_iff.1 (List.mem_takeWhile_imp h)

/-- Unless there are no segments at all, the run leaves one out. -/
lemma length_capitalRun_lt (h : capitalRun before ≠ []) : (capitalRun before).length < before.length := by
  have hne : before ≠ [] := by
    rintro rfl
    exact h rfl
  have hle : (capitalRun before).length ≤ before.dropLast.length := (List.takeWhile_prefix _).length_le
  have hpos := List.length_pos_iff.2 hne
  rw [List.length_dropLast] at hle
  omega

/-- A cut behind no other segment than the last one leaves nothing before a run that is not longer. -/
lemma IsCut.length_le (h : IsCut (last :: before).reverse pkg run last') :
    run.length ≤ (capitalRun before).length := by
  by_cases hrun : run = []
  · simp [hrun]
  · have hreversed : last :: before = last' :: (run.reverse ++ pkg.reverse) := by
      rw [← List.reverse_inj, h.eq]
      simp
    obtain ⟨-, rfl⟩ := List.cons.inj hreversed
    have hcapital : ∀ s ∈ run.reverse, isCapitalized s = true := by
      intro s hs
      exact isCapitalized_iff.2 (h.capital s (List.mem_reverse.1 hs))
    have hpkg : pkg.reverse ≠ [] := by simpa using h.first hrun
    rw [capitalRun, List.dropLast_append_of_ne_nil hpkg, List.takeWhile_append_of_pos hcapital,
      List.length_append, List.length_reverse]
    omega

lemma isCut_capitalRun {rest : List (List Char)} (h : capitalRun before ++ rest = before) :
    IsCut (last :: before).reverse rest.reverse (capitalRun before).reverse last where
  eq := by
    rw [List.reverse_cons, ← List.reverse_append, h]
  capital s hs := beginsCapital_of_mem_capitalRun (List.mem_reverse.1 hs)
  first hrun hrest := by
    have hlt := length_capitalRun_lt (by simpa using hrun)
    have hlength := congrArg List.length h
    rw [List.reverse_eq_nil_iff.1 hrest, List.append_nil] at hlength
    omega

/-- A name is cut before the longest run. -/
lemma exists_isCut (name : String) :
    ∃ pkg run last, IsCut (segments name.toList) pkg run last ∧
      package name = ".".intercalate (pkg.map String.ofList) ∧
      short name = ".".intercalate ((run ++ [last]).map String.ofList) ∧
      ∀ pkg' run' last', IsCut (segments name.toList) pkg' run' last' → run'.length ≤ run.length := by
  have hsegments : segments name.toList = (reversedSegments name).reverse := by
    rw [reversedSegments, List.reverse_reverse]
  obtain ⟨last, before, hname⟩ := List.exists_cons_of_ne_nil (reversedSegments_ne_nil name)
  have hcount : shortCount (last :: before) = (capitalRun before).length + 1 := rfl
  obtain ⟨rest, hrest⟩ := capitalRun_prefix_self before
  have htake : before.take (capitalRun before).length = capitalRun before :=
    (List.prefix_iff_eq_take.1 (capitalRun_prefix_self before)).symm
  have hdrop : before.drop (capitalRun before).length = rest :=
    (congrArg (List.drop _) hrest.symm).trans List.drop_left
  rw [hsegments, package_eq, short_eq, hname, hcount, List.drop_succ_cons, List.take_succ_cons, htake, hdrop,
    ofReversed_eq, ofReversed_eq]
  refine ⟨_, _, last, isCut_capitalRun hrest, rfl, ?_, fun pkg' run' last' h => ?_⟩
  · rw [List.reverse_cons]
  · rw [List.length_reverse]
    exact h.length_le

/-! ### Dots -/

lemma segments_of_not_mem (h : '.' ∉ s) : segments s = [s] := by
  have hsegmented : IsSegmented [s] := by
    intro t ht
    rwa [List.mem_singleton.1 ht]
  have hone := reversedSegments_ofReversed hsegmented (by simp)
  have hs : (ofReversed [s]).toList = s := by simp [ofReversed, joinSegments]
  rw [reversedSegments, hs] at hone
  exact List.reverse_inj.1 hone

/-- A name with one segment has no dot. -/
lemma not_mem_of_segments_eq (h : segments name.toList = [last]) : '.' ∉ name.toList := by
  have hname := ofReversed_reversedSegments name
  rw [reversedSegments, h] at hname
  rw [← hname]
  simpa [ofReversed, joinSegments] using not_mem_of_mem_segments (h ▸ List.mem_singleton_self last)

lemma package_append_short (h : '.' ∈ name.toList) : package name ++ "." ++ short name = name := by
  obtain ⟨pkg, run, last, hcut, hpackage, hshort, -⟩ := exists_isCut name
  have hpkg : pkg ≠ [] := by
    rintro rfl
    have hrun : run = [] := by
      by_contra hne
      exact hcut.first hne rfl
    have hone : segments name.toList = [last] := by rw [hcut.eq, hrun, List.nil_append, List.nil_append]
    exact not_mem_of_segments_eq hone h
  rw [hpackage, hshort, ← String.intercalate_append_of_ne_nil (by simpa using hpkg) (by simp),
    ← List.map_append, ← List.append_assoc, ← hcut.eq]
  conv_rhs => rw [← ofReversed_reversedSegments name]
  rw [ofReversed_eq, reversedSegments, List.reverse_reverse]

lemma package_and_short_of_not_mem (h : '.' ∉ name.toList) : package name = "" ∧ short name = name := by
  obtain ⟨pkg, run, last, hcut, hpackage, hshort, -⟩ := exists_isCut name
  have hone := hcut.eq
  rw [segments_of_not_mem h, ← List.nil_append [name.toList]] at hone
  obtain ⟨hnil, hlast⟩ := List.append_inj' hone rfl
  obtain ⟨rfl, rfl⟩ := List.append_eq_nil_iff.1 hnil.symm
  obtain rfl := (List.cons.inj hlast).1
  exact ⟨hpackage, by simpa using hshort⟩

/-- What stands before a dot and some more is found by its length. -/
lemma toList_eq_take {p t : String} (h : p ++ "." ++ t = name) :
    p.length < name.length ∧ p.toList = name.toList.take (name.length - t.length - 1) := by
  have hlength : name.length = p.length + 1 + t.length := by
    rw [← h, String.length_append, String.length_append]
    rfl
  refine ⟨by omega, ?_⟩
  have hsize : name.length - t.length - 1 = p.toList.length := by
    rw [hlength, String.length_toList]
    omega
  rw [hsize, ← h, String.toList_append, String.toList_append, List.append_assoc]
  exact List.take_left.symm

/-- A name with a dot is its package, a dot and its short name, and so the package is shorter and got by
leaving out the short name and the dot. A name without a dot is its short name and has no package. The short
name is the last segment with the longest run of capitalized segments directly before it, among which the
first segment of the name does not count. -/
theorem splits_before_longest_run (name : String) :
    ('.' ∈ name.toList →
      package name ++ "." ++ short name = name ∧ (package name).length < name.length ∧
        (package name).toList = name.toList.take (name.length - (short name).length - 1)) ∧
    ('.' ∉ name.toList → package name = "" ∧ short name = name) ∧
    ∃ pkg run last, IsCut (segments name.toList) pkg run last ∧
      package name = ".".intercalate (pkg.map String.ofList) ∧
      short name = ".".intercalate ((run ++ [last]).map String.ofList) ∧
      ∀ pkg' run' last', IsCut (segments name.toList) pkg' run' last' → run'.length ≤ run.length := by
  refine ⟨fun h => ?_, package_and_short_of_not_mem, exists_isCut name⟩
  have hname := package_append_short h
  exact ⟨hname, toList_eq_take hname⟩

example : (package ".Ext..Panel.Item", short ".Ext..Panel.Item") = (".Ext.", "Panel.Item") := by decide

end DocGraph.Name
