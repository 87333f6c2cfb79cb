import DocGraph.Catalog.Aggregation
import Mathlib.Tactic.Common

/-!
# What aggregation keeps

The records of classes, the members set aside and the journal hold every member fragment that was
gathered exactly once, and they hold them in order. What they should hold is read off the fragments
themselves: the definitions of a member, the classes mentioned, and for each fragment the definition
that it replaces, which is the last one before it.

The invariant ties the three together. It is kept by every fragment, so it holds for files of any
number.
-/

namespace DocGraph

lemma eraseDups_concat {α : Type} [BEq α] [LawfulBEq α] (xs : List α) (x : α) :
    (xs ++ [x]).eraseDups = if x ∈ xs then xs.eraseDups else xs.eraseDups ++ [x] := by
  rw [List.eraseDups_append]
  by_cases h : x ∈ xs <;> simp [List.removeAll, List.eraseDups_cons, h]

/-! ### What fragments say -/

namespace Fragment

/-- The definitions of a member of a class. -/
def definitions (fs : List Fragment) (cls : String) (key : MemberKey) : List Fragment :=
  fs.filter fun f => f.class? = some cls ∧ f.key? = some key

/-- The keys of the members of a class, as often as they are defined. -/
def keysOf (fs : List Fragment) (cls : String) : List MemberKey :=
  (fs.filter (·.class? = some cls)).filterMap key?

/-- The class that a fragment mentions. -/
def mention? (f : Fragment) : Option String := if f.key?.isSome then f.class? else some f.name

/-- Whether a fragment is about a member without a class. -/
def isOrphan (f : Fragment) : Bool := f.key?.isSome && f.class?.isNone

/-- The report about a fragment after some others: it replaces the last definition of its member. -/
def replacement? (earlier : List Fragment) (f : Fragment) : Option Diagnostic := do
  let cls ← f.class?
  let key ← f.key?
  let previous ← (definitions earlier cls key).getLast?
  return shadowDiagnostic cls previous f

/-- The reports about fragments, one after the other. -/
def replacements (earlier : List Fragment) : List Fragment → List Diagnostic
  | [] => []
  | f :: fs => (replacement? earlier f).toList ++ replacements (earlier ++ [f]) fs

variable (fs : List Fragment) (f : Fragment)

lemma definitions_concat (cls : String) (key : MemberKey) :
    definitions (fs ++ [f]) cls key =
      definitions fs cls key ++ if f.class? = some cls ∧ f.key? = some key then [f] else [] := by
  simp [definitions, List.filter_cons]

lemma keysOf_concat (cls : String) :
    keysOf (fs ++ [f]) cls = keysOf fs cls ++ if f.class? = some cls then f.key?.toList else [] := by
  by_cases h : f.class? = some cls <;> cases hk : f.key? <;> simp [keysOf, h, hk]

lemma replacement?_eq {f : Fragment} {cls : String} {key : MemberKey} (ho : f.class? = some cls)
    (hk : f.key? = some key) (earlier : List Fragment) :
    replacement? earlier f =
      (definitions earlier cls key).getLast?.map fun previous => shadowDiagnostic cls previous f := by
  cases h : (definitions earlier cls key).getLast? <;> simp [replacement?, ho, hk, h]

lemma replacements_concat (earlier : List Fragment) :
    replacements earlier (fs ++ [f]) =
      replacements earlier fs ++ (replacement? (earlier ++ fs) f).toList := by
  induction fs generalizing earlier with
  | nil => simp [replacements]
  | cons g fs ih => simp [replacements, ih]

variable {fs f}

lemma mem_keysOf {cls : String} {key : MemberKey} :
    key ∈ keysOf fs cls ↔ definitions fs cls key ≠ [] := by
  simp [keysOf, definitions, List.mem_filterMap, and_assoc]

end Fragment

/-! ### Records -/

lemma Catalog.record_insert (c : Catalog) (n m : String) (r : Record) :
    Catalog.record (c.insert n r) m = if n = m then r else c.record m := by
  rw [record, OrderedMap.get?_insert]
  split <;> rfl

namespace Aggregation

open Fragment

variable {policy : MergePolicy} {fs : List Fragment} {a : Aggregation} {f : Fragment} {c : String}
  {key : MemberKey}

/-- The records, the members set aside and the journal after some fragments. -/
structure Gathers (fs : List Fragment) (a : Aggregation) : Prop where
  name : ∀ c, (a.classes.record c).name = c
  /-- A definition is shadowed or in the table, and the one in the table is the last one. -/
  defined : ∀ c key, definitions fs c key =
    (a.classes.record c).shadowed.filter (·.key? = some key) ++
      ((a.classes.record c).members.get? key).toList
  keys : ∀ c, (a.classes.record c).members.keys = (keysOf fs c).eraseDups
  orphans : a.orphans = fs.filter isOrphan
  classes : a.classes.keys = (fs.filterMap mention?).eraseDups
  reports : a.journal.diagnostics = replacements [] fs

lemma gathers_nil : Gathers [] {} where
  name _ := rfl
  defined _ _ := rfl
  keys _ := rfl
  orphans := rfl
  classes := rfl
  reports := rfl

namespace Gathers

lemma mem_definitions (h : Gathers fs a) (hf : (a.classes.record c).members.get? key = some f) :
    f ∈ definitions fs c key := by
  rw [h.defined, hf]
  simp

/-- The definition in the table is the last one. -/
lemma getLast?_definitions (h : Gathers fs a) (c : String) (key : MemberKey) :
    (definitions fs c key).getLast? = (a.classes.record c).members.get? key := by
  cases hget : (a.classes.record c).members.get? key with
  | some f => rw [h.defined, hget, Option.toList_some, List.getLast?_concat]
  | none =>
    rw [OrderedMap.get?_eq_none_iff, h.keys, List.mem_eraseDups, mem_keysOf, not_not] at hget
    rw [hget, List.getLast?_nil]

/-! ### One more fragment -/

lemma keys_insert (h : Gathers fs a) {n : String} (hn : f.mention? = some n) (r : Record) :
    (a.classes.insert n r).keys = ((fs ++ [f]).filterMap mention?).eraseDups := by
  rw [OrderedMap.keys_insert, h.classes, List.filterMap_append, List.filterMap_cons_some hn,
    List.filterMap_nil, eraseDups_concat]
  simp only [List.mem_eraseDups]

lemma addClass (h : Gathers fs a) (hf : f.key? = none) : Gathers (fs ++ [f]) (a.add policy f) := by
  have hadd : a.add policy f = { a with
      classes := a.classes.insert f.name ((a.classes.record f.name).declare policy f) } := by
    rw [add, hf]
  -- a declaration changes neither the name nor the members of a record
  have hrecord : ∀ c, ((a.add policy f).classes.record c).name = (a.classes.record c).name ∧
      ((a.add policy f).classes.record c).members = (a.classes.record c).members ∧
      ((a.add policy f).classes.record c).shadowed = (a.classes.record c).shadowed := by
    intro c
    rw [hadd, Catalog.record_insert]
    split
    · next hc => exact hc ▸ ⟨rfl, rfl, rfl⟩
    · exact ⟨rfl, rfl, rfl⟩
  refine { name := fun c => ?_, defined := fun c key => ?_, keys := fun c => ?_, orphans := ?_,
           classes := ?_, reports := ?_ }
  · rw [(hrecord c).1, h.name]
  · rw [(hrecord c).2.1, (hrecord c).2.2, ← h.defined, definitions_concat]
    simp [hf]
  · rw [(hrecord c).2.1, h.keys, keysOf_concat]
    simp [hf]
  · rw [hadd]
    simp [h.orphans, isOrphan, hf]
  · rw [hadd]
    exact h.keys_insert (by simp [mention?, hf]) _
  · rw [hadd, replacements_concat]
    simp [h.reports, replacement?, hf]

lemma addOrphan (h : Gathers fs a) (hf : f.key? = some key) (ho : f.class? = none) :
    Gathers (fs ++ [f]) (a.add policy f) := by
  have hadd : a.add policy f = { a with orphans := a.orphans ++ [f] } := by rw [add, hf, ho]
  rw [hadd]
  refine { name := h.name, defined := fun c key => ?_, keys := fun c => ?_, orphans := ?_,
           classes := ?_, reports := ?_ }
  · rw [definitions_concat, h.defined]
    simp [ho]
  · rw [keysOf_concat, h.keys]
    simp [ho]
  · simp [h.orphans, isOrphan, hf, ho]
  · simp [h.classes, mention?, hf, ho]
  · rw [replacements_concat]
    simp [h.reports, replacement?, ho]

lemma addMember (h : Gathers fs a) (hf : f.key? = some key) (ho : f.class? = some c) :
    Gathers (fs ++ [f]) (a.add policy f) := by
  have hadd : a.add policy f = { a with
      classes := a.classes.insert c ((a.classes.record c).define key f)
      journal := a.journal ++ (a.classes.record c).defineJournal key f } := by
    rw [add, hf, ho]
  have hrecord : ∀ d, (a.add policy f).classes.record d =
      if c = d then (a.classes.record c).define key f else a.classes.record d := by
    intro d
    rw [hadd, Catalog.record_insert]
  -- what is in the table under the key was defined under it
  have hkey : ∀ p ∈ (a.classes.record c).members.get? key, p.key? = some key :=
    fun p hp => (of_decide_eq_true (List.mem_filter.1 (h.mem_definitions hp)).2).2
  refine { name := fun d => ?_, defined := fun d k => ?_, keys := fun d => ?_, orphans := ?_,
           classes := ?_, reports := ?_ }
  · rw [hrecord]
    split
    · next hd => exact hd ▸ h.name c
    · exact h.name d
  · rw [hrecord, definitions_concat, h.defined, ho, hf]
    by_cases hd : c = d
    · subst hd
      have hold : ((a.classes.record c).members.get? key).toList.filter (·.key? = some k) =
          if key = k then ((a.classes.record c).members.get? key).toList else [] := by
        cases hget : (a.classes.record c).members.get? key with
        | none => simp
        | some p => simp [List.filter_cons, hkey p hget]
      by_cases hk : key = k
      · subst hk
        simp [Record.define, hold]
      · simp [Record.define, hold, hk]
    · simp [hd]
  · rw [hrecord, keysOf_concat, ho, hf]
    by_cases hd : c = d
    · subst hd
      simp [Record.define, OrderedMap.keys_insert, h.keys, eraseDups_concat]
    · simp [hd, h.keys]
  · rw [hadd]
    simp [h.orphans, isOrphan, ho]
  · rw [hadd]
    exact h.keys_insert (by simp [mention?, hf, ho]) _
  · rw [hadd, replacements_concat, Journal.diagnostics_append, h.reports, List.nil_append,
      replacement?_eq ho hf, h.getLast?_definitions, Record.defineJournal, h.name]
    cases (a.classes.record c).members.get? key <;> rfl

lemma add (h : Gathers fs a) (policy : MergePolicy) (f : Fragment) :
    Gathers (fs ++ [f]) (a.add policy f) := by
  cases hf : f.key? with
  | none => exact h.addClass hf
  | some key =>
    cases ho : f.class? with
    | none => exact h.addOrphan hf ho
    | some c => exact h.addMember hf ho

/-! ### Files -/

lemma announce (h : Gathers fs a) (file : String) : Gathers fs (a.announce file) :=
  { h with
    reports := by
      rw [Aggregation.announce, Journal.diagnostics_append, h.reports]
      exact List.append_nil _ }

end Gathers

/-- What holds before anything is gathered, and is kept by every fragment and by every file that is begun,
holds of all files together. -/
lemma ofFiles_induction {P : List Fragment → Aggregation → Prop} (policy : MergePolicy)
    (files : List ParsedFile) (hstart : P [] {})
    (hadd : ∀ fs a f, P fs a → P (fs ++ [f]) (a.add policy f))
    (hannounce : ∀ fs a file, P fs a → P fs (a.announce file)) :
    P (files.flatMap ParsedFile.fragments) (ofFiles policy files) := by
  have hfragments : ∀ gs fs a, P fs a → P (fs ++ gs) (gs.foldl (add policy) a) := by
    intro gs
    induction gs with
    | nil => simp
    | cons g gs ih =>
      intro fs a h
      simpa using ih _ _ (hadd fs a g h)
  have hfiles : ∀ fs a, P fs a →
      P (fs ++ files.flatMap ParsedFile.fragments) (files.foldl (addFile policy) a) := by
    induction files with
    | nil => simp
    | cons p files ih =>
      intro fs a h
      simpa [addFile] using ih _ _ (hfragments p.fragments fs _ (hannounce fs a p.file h))
  simpa [ofFiles] using hfiles [] {} hstart

lemma gathers_ofFiles (policy : MergePolicy) (files : List ParsedFile) :
    Gathers (files.flatMap ParsedFile.fragments) (ofFiles policy files) :=
  ofFiles_induction policy files gathers_nil (fun _ _ f h => h.add policy f)
    fun _ _ file h => h.announce file

end Aggregation

end DocGraph
