import DocGraph.Proofs.Batch.Course
import Mathlib.Tactic.Common

/-!
# Written and made members

A record gets a member made only if it does not have it, so in its own table what is written comes
first. Between records it is the order of overrides that counts: the last one that has a member, be it
written or made, decides. So a member that is made for an override takes the place of one that is
written for the class.
-/

namespace DocGraph

open Catalog Fragment Record

variable {fs : List Fragment} {d : Draft} {n : String} {key : MemberKey} {f : Fragment}

/-! ### Single members -/

lemma Fragment.IsWritten.ownedBy {m : String} (h : IsWritten fs m key f) (n : String) :
    IsWritten fs n key (f.ownedBy n) := by
  obtain ⟨w, hw, hk, hi, rfl⟩ := h
  exact ⟨w, hw, hk, hi, rfl⟩

/-- A written member of a record stays, with its options. -/
lemma Record.get?_enrich_of_mem {r : Record} (h : key ∈ r.members.keys) (options : Bool) :
    ∃ w, r.members.get? key = some w ∧
      (r.enrich options).members.get? key = some (amend options w) := by
  rw [← OrderedMap.get?_isSome_iff, Option.isSome_iff_exists] at h
  obtain ⟨w, hw⟩ := h
  exact ⟨w, hw, by simp [get?_enrich, hw]⟩

/-- A member that a record asks for and does not have is made. -/
lemma Record.get?_enrich_of_not_mem {r : Record} (h : key ∉ r.members.keys) (hg : r.Gives key)
    (options : Bool) :
    ∃ f, (key, f) ∈ r.made options ∧ (r.enrich options).members.get? key = some f := by
  obtain ⟨f, hf⟩ := Option.isSome_iff_exists.1 ((isSome_get?_enrich options r key).2 hg)
  refine ⟨f, ?_, hf⟩
  rw [get?_enrich, OrderedMap.get?_eq_none_iff.2 h, Option.map_none, Option.none_or,
    Option.map_eq_some_iff] at hf
  obtain ⟨m, hm, rfl⟩ := hf
  have hkey : m.1 = key := by simpa using List.find?_some hm
  exact hkey ▸ List.mem_of_find?_eq_some hm

/-! ### Finished members -/

namespace Draft

/-- Some member that is written and not ignored is the one that was gathered for a class, or for an
override of it, that is not ignored either. -/
def HasWritten (d : Draft) (n : String) (key : MemberKey) : Prop :=
  ∃ m r w, d.gathered.classes.get? m = some r ∧ r.ignored = false ∧
    (m = n ∨ r.overrides = some n) ∧ r.members.get? key = some w ∧ w.ignored = false

/-- The last override of a class that has a member or asks for it does not have it. -/
def IsOvertaken (d : Draft) (n : String) (key : MemberKey) : Prop :=
  ∃ o ∈ lastGiver (d.written.overridesOf n) key, key ∉ o.members.keys

/-- If no override has a written member or asks for it, the class itself has it. -/
lemma HasWritten.mem_keys (h : d.HasWritten n key)
    (hnone : lastGiver (d.written.overridesOf n) key = none) {t : Record}
    (ht : d.written.get? n = some t) : key ∈ t.members.keys := by
  obtain ⟨m, r, w, hr, hi, hof, hw, hwi⟩ := h
  obtain ⟨r', hr', hover, hmem⟩ := exists_written hr hi hw hwi
  rcases hof with rfl | hof
  · rw [hr', Option.some_inj] at ht
    exact ht ▸ hmem
  · have hmemo : r' ∈ d.written.overridesOf n :=
      List.mem_filter.2 ⟨OrderedMap.mem_values_of_get? hr', by simp [hover, hof]⟩
    exact absurd (.inl hmem) (not_gives_of_lastGiver_eq_none hnone hmemo)

/-- A member of a finished record is a written one, unless it is overtaken. -/
lemma HasWritten.get?_catalog (h : d.HasWritten n key) (hg : d.gathered.Gathers fs) {options : Bool}
    {r : Record} (hr : (d.catalog options).get? n = some r) :
    ∃ f, r.members.get? key = some f ∧
      (¬d.IsOvertaken n key → ∃ w, IsWritten fs n key w ∧ f = amend options w) ∧
      (d.IsOvertaken n key → ∃ o ∈ d.written.overridesOf n, ∃ made,
        (key, made) ∈ o.made options ∧ f = made.ownedBy n) := by
  have hn := isNamed_written hg
  obtain ⟨t, ht, -, -, hmembers⟩ := get?_of_catalog hn hr
  cases hgiver : lastGiver (d.written.overridesOf n) key with
  | none =>
    -- no override has a say, so it is the class that has the written member
    obtain ⟨w, hw, henrich⟩ := get?_enrich_of_mem (h.mem_keys hgiver ht) options
    have hget : r.members.get? key = some (amend options w) := by
      simp [hmembers, hgiver, henrich]
    exact ⟨_, hget, fun _ => ⟨w, isWritten_of_written hg ht hw, rfl⟩, by simp [IsOvertaken, hgiver]⟩
  | some o =>
    obtain ⟨hmem, hgives⟩ := lastGiver_eq_some hgiver
    by_cases hkey : key ∈ o.members.keys
    · obtain ⟨w, hw, henrich⟩ := get?_enrich_of_mem hkey options
      have hget : r.members.get? key = some ((amend options w).ownedBy n) := by
        simp [hmembers, hgiver, henrich]
      have ho : d.written.get? o.name = some o := hn.get?_name (List.mem_filter.1 hmem).1
      refine ⟨_, hget, fun _ => ?_, by simp [IsOvertaken, hgiver, hkey]⟩
      exact ⟨_, (isWritten_of_written hg ho hw).ownedBy n, ownedBy_amend options w n⟩
    · obtain ⟨made, hmade, henrich⟩ := get?_enrich_of_not_mem hkey hgives options
      have hget : r.members.get? key = some (made.ownedBy n) := by
        simp [hmembers, hgiver, henrich]
      exact ⟨_, hget, by simp [IsOvertaken, hgiver, hkey], fun _ => ⟨o, hmem, made, hmade, rfl⟩⟩

end Draft

/-! ### Prepared catalogs -/

namespace Batch

variable {s : Settings} {files : List ParsedFile} {p : Prepared} {j : Journal}

/-- What is written for a class or an override of it comes before what is made, unless the last override
that has the member or asks for it does not have it. In that case a member made for an override takes
the place of the written one. -/
theorem prepare_keeps_written_members
    (h : (aggregate s files >>= prepare s).finish = (.ok p, j)) :
    ∃ d, draft s files = .ok d ∧ ∀ n r key, p.classes.get? n = some r → d.HasWritten n key →
      ∃ f, r.members.get? key = some f ∧
        (¬d.IsOvertaken n key →
          ∃ w, IsWritten (files.flatMap ParsedFile.fragments) n key w ∧ f = amend d.options w) ∧
        (d.IsOvertaken n key → ∃ o ∈ d.written.overridesOf n, ∃ made,
          (key, made) ∈ o.made d.options ∧ f = made.ownedBy n) := by
  obtain ⟨d, hd, hclasses⟩ := aggregate_prepare_yields (Run.finish_eq_iff.1 h)
  refine ⟨d, hd, fun n r key hr hwritten => ?_⟩
  exact hwritten.get?_catalog (gathers_of_draft hd) (hclasses ▸ hr)

/-- A window with a documented method, and a patch for it with a title that has accessors. -/
def patchedWindow (patched : List Fragment) : ParsedFile where
  file := "window.yml"
  fragments := [
    { subject := .cls, name := "Window", doc := "A window." },
    { subject := .member .method, name := "getTitle", owner := some "Window",
      doc := "The title as shown." },
    { subject := .cls, name := "Patch", overrides := some "Window" },
    { subject := .member .cfg, name := "title", owner := some "Patch", type := "String",
      accessor := true }] ++ patched

/-- The patch may bring its own documented method. -/
def patchedGetter : Fragment where
  subject := .member .method
  name := "getTitle"
  owner := some "Patch"
  doc := "The title without markup."

/-- The documentation of the method in the prepared catalog. -/
def preparedDoc (patched : List Fragment) : Option String := do
  let p ← (aggregate .empty [patchedWindow patched] >>= prepare .empty).finish.1.toOption
  let r ← p.classes.get? "Window"
  let f ← r.members.get? ⟨.method, "getTitle"⟩
  return f.doc

lemma exists_prepared {patched : List Fragment} {doc : String} (h : preparedDoc patched = some doc) :
    ∃ p j r f, (aggregate .empty [patchedWindow patched] >>= prepare .empty).finish = (.ok p, j) ∧
      p.classes.get? "Window" = some r ∧ r.members.get? ⟨.method, "getTitle"⟩ = some f ∧
      f.doc = doc := by
  rw [preparedDoc] at h
  rcases hfin : (aggregate .empty [patchedWindow patched] >>= prepare .empty).finish with ⟨e | p, j⟩
  · simp [hfin, Except.toOption] at h
  · simpa [hfin, Except.toOption, Option.bind_eq_some_iff] using h

/-- The getter that is made for the patch takes the place of the documented one. -/
theorem not_prepare_keeps_written_members :
    ¬∀ s files p j d, (aggregate s files >>= prepare s).finish = (.ok p, j) →
      draft s files = .ok d → ∀ n r key, p.classes.get? n = some r → d.HasWritten n key →
        ∃ f w, r.members.get? key = some f ∧
          IsWritten (files.flatMap ParsedFile.fragments) n key w ∧ f = amend d.options w := by
  intro h
  obtain ⟨p, j, r, f, hfin, hr, hf, hdoc⟩ :=
    exists_prepared (show preparedDoc [] = some "Returns the value of \x7b@link #cfg-title\x7d." by decide +kernel)
  obtain ⟨d, hd, -⟩ := aggregate_prepare_yields (Run.finish_eq_iff.1 hfin)
  have hwritten : d.HasWritten "Window" ⟨.method, "getTitle"⟩ := by
    cases hd
    exact ⟨"Window", _, _, rfl, rfl, .inl rfl, rfl, rfl⟩
  obtain ⟨f', w, hf', ⟨w', hmem, hkey, -, rfl⟩, rfl⟩ := h _ _ _ _ _ hfin hd _ _ _ hr hwritten
  obtain rfl := Option.some_inj.1 (hf.symm.trans hf')
  have hshown : ∀ w ∈ (patchedWindow []).fragments,
      w.key? = some ⟨.method, "getTitle"⟩ → w.doc = "The title as shown." := by decide
  have hsame := hshown w' (by simpa using hmem) hkey
  rw [doc_amend] at hdoc
  exact absurd (hsame.symm.trans hdoc) (by decide)

/-- A documented method of the patch itself takes the place of that of the window. -/
theorem prepare_keeps_written_members_patchedGetter :
    ∃ p j d r f, (aggregate .empty [patchedWindow [patchedGetter]] >>= prepare .empty).finish =
        (.ok p, j) ∧
      draft .empty [patchedWindow [patchedGetter]] = .ok d ∧ p.classes.get? "Window" = some r ∧
      d.HasWritten "Window" ⟨.method, "getTitle"⟩ ∧ ¬d.IsOvertaken "Window" ⟨.method, "getTitle"⟩ ∧
      r.members.get? ⟨.method, "getTitle"⟩ = some f ∧ f.doc = "The title without markup." ∧
      ∃ w, IsWritten (patchedWindow [patchedGetter]).fragments "Window" ⟨.method, "getTitle"⟩ w ∧
        f = amend d.options w := by
  obtain ⟨p, j, r, f, hfin, hr, hf, hdoc⟩ :=
    exists_prepared (show preparedDoc [patchedGetter] = some "The title without markup." by decide +kernel)
  obtain ⟨d, hd, hkeeps⟩ := prepare_keeps_written_members hfin
  have hwritten : d.HasWritten "Window" ⟨.method, "getTitle"⟩ := by
    cases hd
    exact ⟨"Window", _, _, rfl, rfl, .inl rfl, rfl, rfl⟩
  have hfirst : ¬d.IsOvertaken "Window" ⟨.method, "getTitle"⟩ := by
    have hgiver : (lastGiver (d.written.overridesOf "Window") ⟨.method, "getTitle"⟩).map
        (fun o => decide (⟨.method, "getTitle"⟩ ∈ o.members.keys)) = some true := by
      cases hd
      decide +kernel
    rintro ⟨o, ho, hnot⟩
    rw [Option.mem_def.1 ho] at hgiver
    simp [hnot] at hgiver
  obtain ⟨f', hf', hkept, -⟩ := hkeeps _ _ _ hr hwritten
  obtain rfl := Option.some_inj.1 (hf.symm.trans hf')
  obtain ⟨w, hw, heq⟩ := hkept hfirst
  exact ⟨p, j, d, r, f, hfin, hd, hr, hwritten, hfirst, hf, hdoc, w, by simpa using hw, heq⟩

end Batch

end DocGraph
