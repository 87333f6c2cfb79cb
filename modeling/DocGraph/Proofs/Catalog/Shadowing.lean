import DocGraph.Proofs.Catalog.Draft
import DocGraph.Proofs.Graph.Flaws

/-!
# Reports of replaced definitions

A definition becomes shadowed only when another one is put in its place, and that is reported under the
name of the class that has it from then on. Counted by classes and names there are always at least as many
reports as shadowed definitions: gathering, hoisting and overriding add to both alike, and the other
passes at most remove records together with what they have shadowed.
-/

namespace DocGraph

open Catalog Lint

/-! ### Records -/

namespace Record

variable {r : Record} {n : String} {ds : List Diagnostic}

/-- The shadowed definitions of a record have all been reported, as definitions of the class `n`. -/
def IsReported (ds : List Diagnostic) (n : String) (r : Record) : Prop :=
  Covers (reported ds) n r.shadowed

lemma IsReported.append (h : r.IsReported ds n) (ds' : List Diagnostic) :
    r.IsReported (ds ++ ds') n :=
  Covers.append h ds'

lemma reported_defineJournal (r : Record) (key : MemberKey) (f : Fragment) :
    reported (r.defineJournal key f).diagnostics =
      (r.members.get? key).toList.map fun p => (some r.name, some p.name) := by
  rw [defineJournal]
  cases r.members.get? key with
  | none => rfl
  | some p => rfl

/-- What a definition replaces is shadowed and reported. -/
lemma IsReported.define (h : r.IsReported ds n) (hname : r.name = n) (key : MemberKey)
    (f : Fragment) : (r.define key f).IsReported (ds ++ (r.defineJournal key f).diagnostics) n := by
  intro m
  have hold := h m
  rw [reported_append, reported_defineJournal, List.count_append, Record.define, List.map_append,
    List.count_append, hname]
  cases r.members.get? key with
  | none => simpa using hold
  | some p =>
    by_cases hp : p.name = m
    · simpa [hp] using hold
    · have hne : ¬(some n, some p.name) = (some n, some m) := by simpa using hp
      simpa [hp, List.count_singleton, hne] using hold

lemma IsReported.foldl_defineIn {s : Record × Journal}
    (h : s.1.IsReported (ds ++ s.2.diagnostics) n) (hname : s.1.name = n) (cls : String)
    (ms : List (MemberKey × Fragment)) :
    (ms.foldl (fun s m => defineIn cls s m.1 m.2) s).1.IsReported
      (ds ++ (ms.foldl (fun s m => defineIn cls s m.1 m.2) s).2.diagnostics) n := by
  -- each definition adds to the journal what it adds to the shadowed ones
  induction ms generalizing s with
  | nil => exact h
  | cons m ms ih =>
    refine ih ?_ hname
    have hstep := h.define hname m.1 (m.2.ownedBy cls)
    rw [List.append_assoc, ← Journal.diagnostics_append] at hstep
    exact hstep

end Record

lemma Catalog.name_foldl_defineIn {s : Record × Journal} {n : String} (h : s.1.name = n) (cls : String)
    (ms : List (MemberKey × Fragment)) :
    (ms.foldl (fun s m => defineIn cls s m.1 m.2) s).1.name = n := by
  rw [fst_foldl_defineIn, Record.name_absorb, h]

/-! ### Gathering -/

namespace Aggregation

variable {a : Aggregation} {policy : MergePolicy}

/-- The records are at their names, and what they have shadowed is reported. -/
def IsReported (a : Aggregation) : Prop :=
  ∀ n, (a.classes.record n).name = n ∧ (a.classes.record n).IsReported a.journal.diagnostics n

lemma IsReported.add (h : a.IsReported) (policy : MergePolicy) (f : Fragment) :
    (a.add policy f).IsReported := by
  intro n
  rw [Aggregation.add]
  split
  · -- a declaration leaves the name and what is shadowed
    rw [record_insert]
    split
    · next hn => exact hn ▸ h f.name
    · exact h n
  · exact h n
  · next key owner _ _ =>
    obtain ⟨hname, hreported⟩ := h owner
    simp only [record_insert, Journal.diagnostics_append]
    split
    · next hn =>
      subst hn
      exact ⟨hname, hreported.define hname key f⟩
    · exact ⟨(h n).1, (h n).2.append _⟩

lemma IsReported.announce (h : a.IsReported) (file : String) : (a.announce file).IsReported := by
  intro n
  obtain ⟨hname, hreported⟩ := h n
  rw [Aggregation.announce, Journal.diagnostics_append]
  exact ⟨hname, hreported.append _⟩

lemma isReported_ofFiles (policy : MergePolicy) (files : List ParsedFile) :
    (ofFiles policy files).IsReported :=
  ofFiles_induction (P := fun _ a => a.IsReported) policy files (fun _ => ⟨rfl, fun _ => Nat.zero_le _⟩)
    (fun _ _ f h => h.add policy f) fun _ _ file h => h.announce file

end Aggregation

/-! ### Passes -/

namespace Catalog

variable {c : Catalog} {ds : List Diagnostic} {n : String}

/-- Every record is at its own name, and what the records have shadowed is reported. -/
structure IsReported (ds : List Diagnostic) (c : Catalog) : Prop where
  named : c.IsNamed
  records : ∀ n r, c.get? n = some r → r.IsReported ds n

namespace IsReported

lemma ofGathered {a : Aggregation} (h : a.IsReported) : a.classes.IsReported a.journal.diagnostics := by
  constructor
  · intro n r hr
    simpa [record, hr] using (h n).1
  · intro n r hr
    simpa [record, hr] using (h n).2

lemma append (h : c.IsReported ds) (ds' : List Diagnostic) : c.IsReported (ds ++ ds') :=
  ⟨h.named, fun n r hr => (h.records n r hr).append ds'⟩

lemma insert (h : c.IsReported ds) {r : Record} (hname : r.name = n) (hr : r.IsReported ds n) :
    IsReported ds (c.insert n r) := by
  constructor
  · exact hname ▸ h.named.insert r
  · intro m r' hr'
    rw [OrderedMap.get?_insert] at hr'
    split at hr'
    · next hm => rwa [← Option.some_inj.1 hr', ← hm]
    · exact h.records m r' hr'

lemma erase (h : c.IsReported ds) (n : String) : IsReported ds (c.erase n) := by
  have hget : ∀ m r, OrderedMap.get? (c.erase n) m = some r → c.get? m = some r := by
    intro m r hr
    rw [OrderedMap.get?_erase] at hr
    split at hr
    · simp at hr
    · exact hr
  constructor
  · exact fun m r hr => h.named m r (hget m r hr)
  · exact fun m r hr => h.records m r (hget m r hr)

lemma map (h : c.IsReported ds) (f : Record → Record) (hname : ∀ r, (f r).name = r.name)
    (hshadowed : ∀ r, (f r).shadowed = r.shadowed) : IsReported ds (c.map fun _ r => f r) := by
  constructor
  · exact h.named.map f hname
  · intro n r' hr'
    rw [OrderedMap.get?_map, Option.map_eq_some_iff] at hr'
    obtain ⟨r, hr, rfl⟩ := hr'
    rw [Record.IsReported, hshadowed]
    exact h.records n r hr

lemma dropIgnored (h : c.IsReported ds) : (dropIgnored c).classes.IsReported ds := by
  constructor
  · exact h.named.dropIgnored
  · intro n r' hr'
    rw [get?_dropIgnored, Option.map_eq_some_iff] at hr'
    obtain ⟨r, hr, rfl⟩ := hr'
    exact h.records n r (Option.filter_eq_some_iff.1 hr).1

lemma hoistGlobals (h : c.IsReported ds) (orphans : List Fragment) (unwanted : Bool) :
    (hoistGlobals c orphans unwanted).classes.IsReported
      (ds ++ (hoistGlobals c orphans unwanted).journal.diagnostics) := by
  rw [Catalog.hoistGlobals]
  split
  · exact h.append _
  · have hglobals : ((c.get? globalName).getD globalRecord).IsReported ds globalName := by
      cases hg : c.get? globalName with
      | none => exact fun _ => Nat.zero_le _
      | some r => exact h.records globalName r hg
    exact (h.append _).insert (name_foldl_defineIn (name_globals h.named) _ _)
      (Record.IsReported.foldl_defineIn (s := (_, [])) (hglobals.append _) (name_globals h.named) _ _)

/-- An override gives what it replaces in its target to the target's account. -/
lemma applyOverride (h : c.IsReported ds) (r : Record) :
    (applyOverride c r).1.IsReported (ds ++ (applyOverride c r).2.diagnostics) := by
  rw [Catalog.applyOverride]
  cases htarget : overrideTarget? c r with
  | none => exact h.append _
  | some target =>
    obtain ⟨m, -, hm, -⟩ := overrideTarget?_eq_some_iff.1 htarget
    obtain rfl := h.named m target hm
    have htarget' := h.records _ target hm
    exact (h.append _).insert (name_foldl_defineIn rfl _ _)
      (Record.IsReported.foldl_defineIn (s := (_, [])) (htarget'.append _) rfl _ _)

lemma foldl_overrideStep {e : Enriched} (h : e.classes.IsReported (ds ++ e.journal.diagnostics))
    (rs : List Record) :
    (rs.foldl overrideStep e).classes.IsReported
      (ds ++ (rs.foldl overrideStep e).journal.diagnostics) := by
  induction rs generalizing e with
  | nil => exact h
  | cons r rs ih =>
    refine ih ?_
    have hstep := (h.applyOverride r).erase r.name
    rw [List.append_assoc, ← Journal.diagnostics_append] at hstep
    exact hstep

lemma applyOverrides (h : c.IsReported ds) :
    (applyOverrides c).classes.IsReported (ds ++ (applyOverrides c).journal.diagnostics) :=
  foldl_overrideStep (e := { classes := c }) (h.append _) _

end IsReported

end Catalog

end DocGraph
