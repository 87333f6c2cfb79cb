import DocGraph.Proofs.Fragment.Parts
import DocGraph.Proofs.Graph.Versions
import DocGraph.Proofs.Settings.Merge
import DocGraph.Settings.Load

/-!
# Versions in settings and in fragments

A version that is written in a fragment becomes a text when the fragment is read. One that is set in a
configuration stays as it is written there. The two meet where a class has the default version and where
members are asked whether they are new.

Main statement: a version that is written in both places is one version there if and only if it is a text
to begin with, and one without blanks at its ends.
-/

namespace DocGraph

variable {v : Scalar} {s : String} {f : Fragment}

/-! ### Versions that are written -/

/-- A scalar counts as true and is read as a text that is not empty. -/
structure Scalar.ReadsAs (v : Scalar) (s : String) : Prop where
  isTruthy : v.isTruthy
  asText : (Value.scalar v).asText? = .ok (some s)

/-- A fragment is that of an entry with a version. -/
def Fragment.IsWrittenWith (f : Fragment) (v : Scalar) : Prop :=
  ∃ ps file index, Value.fieldOf ps "since" = .scalar v ∧ Fragment.ofPairs ps file index = .ok f

/-- The version of a fragment is the text that is made of it. -/
lemma Fragment.IsWrittenWith.since_eq (hf : f.IsWrittenWith v) (hv : v.ReadsAs s) : f.since = some s := by
  obtain ⟨ps, file, index, hsince, hread⟩ := hf
  have htext := (parts_of_ofPairs hread).2.1
  rw [Value.textOf?, hsince, hv.asText, Except.ok.injEq] at htext
  exact htext.symm

lemma Scalar.ReadsAs.ne_empty (hv : v.ReadsAs s) : s.isEmpty = false := by
  have htext := hv.asText
  simp only [Value.asText?, bind_eq_ok, pure_eq_ok] at htext
  obtain ⟨text, -, htext⟩ := htext
  split at htext
  · cases htext
  · next hs =>
    cases htext
    exact Bool.eq_false_iff.2 hs

/-! ### Versions that are set -/

namespace Settings

variable {path name : String} {doc : Value} {qs : List (Scalar × Value)} {settings : Settings}

lemma exists_mergePairs_of_ofDocument (h : ofDocument path doc = .ok settings)
    (hdoc : doc.orEmpty.opened = .map qs) :
    ∃ rs, mergePairs defaultPairs qs = .ok rs ∧ settings = ⟨.map rs⟩ := by
  simp only [ofDocument, hdoc] at h
  split at h
  · next rs hmerge =>
    refine ⟨rs, hmerge, ?_⟩
    rw [checked] at h
    split at h
    · cases h
    · split_ifs at h
      · cases h
        rfl
      · split at h <;> cases h
  · cases h

/-- A setting that is null by default is loaded as it is written. -/
lemma field_of_ofDocument (h : ofDocument path doc = .ok settings) (hdoc : doc.orEmpty.opened = .map qs)
    (hdefault : Value.find? defaultPairs (.text name) = some .null) :
    settings.field name = .ok (Value.fieldOf qs name) := by
  obtain ⟨rs, hmerge, rfl⟩ := exists_mergePairs_of_ofDocument h hdoc
  obtain ⟨new, hnew, hlaid⟩ := find?_mergePairs hmerge hdefault
  rw [laidOver_scalar, Except.ok.injEq] at hlaid
  simp [field, Value.field, Value.pairs?, Value.fieldOf, hnew, hlaid]

/-- Neither version is set by default. -/
lemma find?_defaultPairs_version (hname : name = "default_version" ∨ name = "new_since") :
    Value.find? defaultPairs (.text name) = some .null := by
  rcases hname with rfl | rfl <;>
    simp [defaultPairs, Value.find?, Scalar.text_same_iff, Value.record]

end Settings

namespace ClassGraph

variable {g : ClassGraph} {o : VersionOptions} {c d : DocClass} {m : Member} {r : MemberRef}

/-- The settings of some versions come from a document that sets one of them. -/
def VersionOptions.IsLoaded (o : VersionOptions) (name : String) (v : Scalar) : Prop :=
  ∃ path doc qs settings, doc.orEmpty.opened = .map qs ∧ Value.fieldOf qs name = .scalar v ∧
    Settings.ofDocument path doc = .ok settings ∧ settings.versions = .ok o

/-- What is set is taken as it is written. -/
lemma VersionOptions.IsLoaded.exists_settings {name : String} (h : o.IsLoaded name v)
    (hname : name = "default_version" ∨ name = "new_since") :
    ∃ settings : Settings, settings.field name = .ok (.scalar v) ∧ settings.versions = .ok o := by
  obtain ⟨path, doc, qs, settings, hdoc, hv, hload, ho⟩ := h
  have hfield := Settings.field_of_ofDocument hload hdoc (Settings.find?_defaultPairs_version hname)
  exact ⟨settings, hv ▸ hfield, ho⟩

lemma VersionOptions.IsLoaded.default_eq (h : o.IsLoaded "default_version" v) : o.default = .scalar v := by
  obtain ⟨settings, hfield, ho⟩ := h.exists_settings (.inl rfl)
  simp only [Settings.versions, hfield, bind_eq_ok, pure_eq_ok] at ho
  obtain ⟨w, hw, _, -, rfl⟩ := ho
  exact (Except.ok.inj hw).symm

lemma VersionOptions.IsLoaded.newSince_eq (h : o.IsLoaded "new_since" v) : o.newSince = .scalar v := by
  obtain ⟨settings, hfield, ho⟩ := h.exists_settings (.inr rfl)
  simp only [Settings.versions, hfield, bind_eq_ok, pure_eq_ok] at ho
  obtain ⟨_, -, w, hw, rfl⟩ := ho
  exact (Except.ok.inj hw).symm

/-! ### Where they meet -/

lemma written_of_readsAs (hv : v.ReadsAs s) : written (some s) = some s := by
  simp [written, hv.ne_empty]

/-- A text is the version that was asked for if and only if it is set as it is. -/
lemma isAsked_text_iff (hv : v.isTruthy) (ho : o.newSince = .scalar v) :
    isAsked o (.text s) = true ↔ v = .text s := by
  rw [← Scalar.text_same_iff]
  simp [isAsked, ho, Value.isTruthy, hv, Value.equals, Except.toOption, Scalar.same]

/-- A class without a version has the one of another class by default if and only if it is set as the text
that is read for the other one. -/
lemma versionOf_eq_iff (hv : v.ReadsAs s) (ho : o.default = .scalar v) {n k : String}
    (hc : g.find? n = some c) (hd : g.find? k = some d) (hnone : written c.since = none)
    (hsome : d.since = some s) :
    (g.withVersions o).versionOf n = (g.withVersions o).versionOf k ↔ v = .text s := by
  rw [versionOf_withVersions hc, versionOf_withVersions hd, hnone, hsome, written_of_readsAs hv, ho]
  simp [versionOr]

/-- A member with a version is new if and only if the version is asked for as the text that is read. -/
lemma exists_isNew_iff (hv : v.ReadsAs s) (ho : o.newSince = .scalar v) (hm : g.memberAt? r = some m)
    (hsome : m.since = some s) :
    ∃ m', (g.withVersions o).memberAt? r = some m' ∧ (m'.isNew = true ↔ v = .text s) := by
  obtain ⟨clsSince, hm'⟩ := memberAt?_withVersions hm
  refine ⟨_, hm', ?_⟩
  have hwritten : g.writtenSince m = some s := by
    rw [writtenSince, hsome, written_of_readsAs hv, Option.some_or]
  rw [settleMember, hwritten]
  exact isAsked_text_iff hv.isTruthy ho

/-- A version that is set in a configuration agrees with one that is written in a fragment if and only if
it is the very text that the fragment is read with: so a class without a version gets the one of a class
with it, and so members with it are new. Settling never fails for it. -/
theorem settleVersions_agrees_iff (hv : v.ReadsAs s) (hf : f.IsWrittenWith v) :
    (o.IsLoaded "default_version" v → ∃ g', g.settleVersions o = .ok g' ∧
      ∀ n k c d, g.find? n = some c → g.find? k = some d → written c.since = none → d.since = f.since →
        (g'.versionOf n = g'.versionOf k ↔ v = .text s)) ∧
    (o.IsLoaded "new_since" v → ∃ g', g.settleVersions o = .ok g' ∧
      ∀ r m, g.memberAt? r = some m → m.since = f.since →
        ∃ m', g'.memberAt? r = some m' ∧ (m'.isNew = true ↔ v = .text s)) := by
  have hsince := hf.since_eq hv
  constructor
  · intro ho
    refine ⟨_, settleVersions_of_scalar (.inl ho.default_eq), ?_⟩
    intro n k c d hc hd hnone hsome
    exact versionOf_eq_iff hv ho.default_eq hc hd hnone (hsome.trans hsince)
  · intro ho
    refine ⟨_, settleVersions_of_scalar (.inr ho.newSince_eq), ?_⟩
    intro r m hm hsome
    exact exists_isNew_iff hv ho.newSince_eq hm (hsome.trans hsince)

/-- A day as a version. -/
def dayVersion : Scalar := .date ⟨2024, 1, 31⟩

lemma readsAs_dayVersion : dayVersion.ReadsAs "2024-01-31" := ⟨rfl, rfl⟩

/-- A fragment that is written with that version. -/
def dayFragment : Fragment where
  subject := .cls
  name := "Button"
  since := some "2024-01-31"

lemma isWrittenWith_dayFragment : dayFragment.IsWrittenWith dayVersion :=
  ⟨[(.text "tagname", .text "class"), (.text "name", .text "Button"), (.text "since", .scalar dayVersion)],
    "", 0, rfl, rfl⟩

/-- Both version settings for a document that sets them to that version. -/
def dayOptions : VersionOptions := ⟨.scalar dayVersion, .scalar dayVersion⟩

lemma isLoaded_dayOptions {name : String} (h : name = "default_version" ∨ name = "new_since") :
    dayOptions.IsLoaded name dayVersion := by
  refine ⟨"config.yml", .map [(.text "default_version", .scalar dayVersion),
    (.text "new_since", .scalar dayVersion)], _, _, rfl, ?_, rfl, rfl⟩
  rcases h with rfl | rfl <;> rfl

/-- Two classes, of which one has that version, and a member with that version. -/
def dayGraph : ClassGraph where
  classes := [
    { name := "Panel"
      members := ⟨[(⟨.method, "show"⟩, { ref := ⟨"Panel", .method, "show"⟩, since := some "2024-01-31" })],
        by decide⟩
      located := by decide },
    { name := "Button"
      since := some "2024-01-31" }]
  distinct := by decide

/-- A day is no text, so neither setting agrees with what is written in fragments. -/
theorem not_settleVersions_agrees :
    (¬∀ (g : ClassGraph) (o : VersionOptions) (v : Scalar) (s : String) (f : Fragment), v.ReadsAs s →
      f.IsWrittenWith v → o.IsLoaded "default_version" v → ∃ g', g.settleVersions o = .ok g' ∧
        ∀ n k c d, g.find? n = some c → g.find? k = some d → written c.since = none →
          d.since = f.since → g'.versionOf n = g'.versionOf k) ∧
    ¬∀ (g : ClassGraph) (o : VersionOptions) (v : Scalar) (s : String) (f : Fragment), v.ReadsAs s →
      f.IsWrittenWith v → o.IsLoaded "new_since" v → ∃ g', g.settleVersions o = .ok g' ∧
        ∀ r m, g.memberAt? r = some m → m.since = f.since →
          ∃ m', g'.memberAt? r = some m' ∧ m'.isNew = true := by
  have hsettled : dayGraph.settleVersions dayOptions = .ok (dayGraph.withVersions dayOptions) :=
    settleVersions_of_scalar (.inl rfl)
  constructor
  · intro h
    obtain ⟨g', hg', h⟩ := h dayGraph dayOptions _ _ _ readsAs_dayVersion isWrittenWith_dayFragment
      (isLoaded_dayOptions (.inl rfl))
    obtain rfl := Except.ok.inj (hsettled.symm.trans hg')
    have heq := h "Panel" "Button" _ _ rfl rfl rfl rfl
    cases (versionOf_eq_iff readsAs_dayVersion rfl rfl rfl rfl rfl).1 heq
  · intro h
    obtain ⟨g', hg', h⟩ := h dayGraph dayOptions _ _ _ readsAs_dayVersion isWrittenWith_dayFragment
      (isLoaded_dayOptions (.inr rfl))
    obtain rfl := Except.ok.inj (hsettled.symm.trans hg')
    obtain ⟨m', hm', hnew⟩ := h ⟨"Panel", .method, "show"⟩ _ rfl rfl
    obtain ⟨m'', hm'', hiff⟩ := exists_isNew_iff readsAs_dayVersion (o := dayOptions) rfl
      (g := dayGraph) (r := ⟨"Panel", .method, "show"⟩) rfl rfl
    obtain rfl := Option.some.inj (hm'.symm.trans hm'')
    cases hiff.1 hnew

/-- For a day the two classes get different versions, and the member is not new. -/
theorem settleVersions_agrees_iff_day :
    dayVersion.ReadsAs "2024-01-31" ∧ dayFragment.IsWrittenWith dayVersion ∧
      ∃ g', dayGraph.settleVersions dayOptions = .ok g' ∧
        g'.versionOf "Panel" ≠ g'.versionOf "Button" ∧
        ∃ m', g'.memberAt? ⟨"Panel", .method, "show"⟩ = some m' ∧ m'.isNew ≠ true := by
  have hagrees := settleVersions_agrees_iff readsAs_dayVersion isWrittenWith_dayFragment
    (g := dayGraph) (o := dayOptions)
  obtain ⟨g', hg', hclasses⟩ := hagrees.1 (isLoaded_dayOptions (.inl rfl))
  obtain ⟨g'', hg'', hmembers⟩ := hagrees.2 (isLoaded_dayOptions (.inr rfl))
  obtain rfl := Except.ok.inj (hg'.symm.trans hg'')
  obtain ⟨m', hm', hnew⟩ := hmembers ⟨"Panel", .method, "show"⟩ _ rfl rfl
  refine ⟨readsAs_dayVersion, isWrittenWith_dayFragment, g', hg', fun heq => ?_, m', hm', fun hm => ?_⟩
  · cases (hclasses "Panel" "Button" _ _ rfl rfl rfl rfl).1 heq
  · cases hnew.1 hm

end ClassGraph

end DocGraph
