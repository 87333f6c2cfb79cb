import DocGraph.Proofs.Catalog.Declaration
import DocGraph.Proofs.Catalog.Overriding

/-!
# Folding overrides

All definitions that a class comes to have stand in one line: its own ones, and after them those of its
overrides, one override after the other. What is in its table in the end is the last definition of each
member in this line, and each definition that comes after another one of its member has displaced the last
one before it.

An override is idle if there is no class that it could be folded into, because its target does not exist or
is an override too. That is the same whether its target has been removed by then or not, since a target that
is an override is of no use in either case.
-/

namespace DocGraph

/-! ### Lines of definitions -/

namespace Fragment

variable {before before' : List (MemberKey × Fragment)} {key : MemberKey}

/-- The last definition of a member in a line. -/
def lastOf (ms : List (MemberKey × Fragment)) (key : MemberKey) : Option Fragment :=
  (ms.reverse.find? (·.1 = key)).map Prod.snd

/-- The definitions that are displaced when a line goes on, each with the one that displaces it. -/
def displaced (before : List (MemberKey × Fragment)) :
    List (MemberKey × Fragment) → List (Fragment × Fragment)
  | [] => []
  | m :: ms => ((lastOf before m.1).map (·, m.2)).toList ++ displaced (before ++ [m]) ms

lemma lastOf_append (ms ms' : List (MemberKey × Fragment)) (key : MemberKey) :
    lastOf (ms ++ ms') key = (lastOf ms' key).or (lastOf ms key) := by
  simp only [lastOf, List.reverse_append, List.find?_append, Option.map_or]

lemma displaced_append (before ms ms' : List (MemberKey × Fragment)) :
    displaced before (ms ++ ms') = displaced before ms ++ displaced (before ++ ms) ms' := by
  induction ms generalizing before with
  | nil => simp [displaced]
  | cons m ms ih => simp [displaced, ih]

/-- Of what came before, only the last definition of each member matters. -/
lemma displaced_congr (h : ∀ key, lastOf before key = lastOf before' key)
    (ms : List (MemberKey × Fragment)) : displaced before ms = displaced before' ms := by
  induction ms generalizing before before' with
  | nil => rfl
  | cons m ms ih =>
    rw [displaced, displaced, h, ih fun key => ?_]
    rw [lastOf_append, lastOf_append, h]

end Fragment

/-! ### Tables -/

namespace Record

open Fragment

/-- Definitions as those of a class that they are handed to. -/
def handed (cls : String) (ms : List (MemberKey × Fragment)) : List (MemberKey × Fragment) :=
  ms.map fun m => (m.1, m.2.ownedBy cls)

/-- The definitions of some records in one line. -/
def offered (os : List Record) : List (MemberKey × Fragment) := os.flatMap (·.members.entries)

lemma lastOf_entries (r : Record) (key : MemberKey) :
    lastOf r.members.entries key = r.members.get? key :=
  r.members.find?_reverse_entries key

@[simp] lemma handed_nil (cls : String) : handed cls [] = [] := rfl

lemma handed_append (cls : String) (ms ms' : List (MemberKey × Fragment)) :
    handed cls (ms ++ ms') = handed cls ms ++ handed cls ms' :=
  List.map_append

@[simp] lemma handed_singleton (cls : String) (m : MemberKey × Fragment) :
    handed cls [m] = [(m.1, m.2.ownedBy cls)] := rfl

@[simp] lemma offered_nil : offered [] = [] := rfl

@[simp] lemma offered_singleton (o : Record) : offered [o] = o.members.entries :=
  List.flatMap_singleton ..

@[simp] lemma offered_append (os os' : List Record) :
    offered (os ++ os') = offered os ++ offered os' :=
  List.flatMap_append

lemma absorb_append (cls : String) (r : Record) (ms ms' : List (MemberKey × Fragment)) :
    r.absorb cls (ms ++ ms') = (r.absorb cls ms).absorb cls ms' := by
  rw [absorb, List.foldl_append]
  rfl

/-- In the table is the last definition of the line. -/
lemma lastOf_absorb (cls : String) (r : Record) (ms : List (MemberKey × Fragment)) (key : MemberKey) :
    lastOf (r.absorb cls ms).members.entries key = lastOf (r.members.entries ++ handed cls ms) key := by
  rw [lastOf_entries, get?_absorb, lastOf_append, lastOf_entries, lastOf, handed, ← List.map_reverse,
    List.find?_map, Option.map_map]
  rfl

lemma shadowed_absorb (cls : String) (r : Record) (ms : List (MemberKey × Fragment)) :
    (r.absorb cls ms).shadowed =
      r.shadowed ++ (displaced r.members.entries (handed cls ms)).map Prod.fst := by
  induction ms using List.reverseRecOn with
  | nil => simp [absorb, displaced]
  | append_singleton ms m ih =>
    rw [absorb_concat, define, ih, handed_append, displaced_append, ← lastOf_entries, lastOf_absorb]
    cases h : lastOf (r.members.entries ++ handed cls ms) m.1 <;> simp [displaced, h]

/-- Keys that are new follow those that were there. -/
lemma keys_absorb (cls : String) (r : Record) (ms : List (MemberKey × Fragment)) :
    (r.absorb cls ms).members.keys =
      r.members.keys ++ ((ms.map Prod.fst).filter (· ∉ r.members.keys)).eraseDups := by
  induction ms using List.reverseRecOn with
  | nil => simp [absorb]
  | append_singleton ms m ih =>
    rw [absorb_concat, define, OrderedMap.keys_insert, ih, List.map_append, List.filter_append]
    by_cases hold : m.1 ∈ r.members.keys
    · simp [hold]
    · by_cases hnew : m.1 ∈ ms.map Prod.fst <;> simp_all [eraseDups_concat]

@[simp] lemma heading_absorb (cls : String) (r : Record) (ms : List (MemberKey × Fragment)) :
    (r.absorb cls ms).heading = r.heading := by
  induction ms using List.reverseRecOn with
  | nil => rfl
  | append_singleton ms m ih =>
    rw [absorb_concat, ← ih]
    rfl

lemma overlay_eq_absorb (cls : String) (os : List Record) (t : Record) :
    t.overlay cls os = t.absorb cls (offered os) := by
  induction os using List.reverseRecOn with
  | nil => rfl
  | append_singleton os o ih =>
    rw [overlay_concat, ih, offered_append, offered_singleton, absorb_append]

/-- A record is that of a class with some others folded into it. -/
structure IsFolded (cls : String) (os : List Record) (t t' : Record) : Prop where
  heading : t'.heading = t.heading
  get? : ∀ key, t'.members.get? key =
    ((os.filterMap (·.members.get? key)).getLast?.map (·.ownedBy cls)).or (t.members.get? key)
  keys : t'.members.keys =
    t.members.keys ++ ((os.flatMap (·.members.keys)).filter (· ∉ t.members.keys)).eraseDups
  shadowed : t'.shadowed =
    t.shadowed ++ (displaced t.members.entries (handed cls (offered os))).map Prod.fst

lemma isFolded_overlay (cls : String) (os : List Record) (t : Record) :
    IsFolded cls os t (t.overlay cls os) where
  heading := by rw [overlay_eq_absorb, heading_absorb]
  get? key := by
    rw [get?_overlay, List.getLast?_filterMap, List.map_findSome?]
    rfl
  keys := by
    rw [overlay_eq_absorb, keys_absorb, offered, List.map_flatMap]
    rfl
  shadowed := by rw [overlay_eq_absorb, shadowed_absorb]

end Record

/-! ### Catalogs -/

namespace Catalog

open Fragment Record

variable {c : Catalog} {o r t : Record} {n : String} {applied : List Record}

/-- Nothing is there that an override could be folded into. -/
def IsIdle (c : Catalog) (o : Record) : Prop := ∀ n ∈ o.overrides, ∀ t ∈ c.get? n, t.overrides ≠ none

instance (c : Catalog) (o : Record) : Decidable (c.IsIdle o) :=
  inferInstanceAs (Decidable (∀ n ∈ o.overrides, ∀ t ∈ c.get? n, t.overrides ≠ none))

lemma overrideTarget?_eq_none_iff : overrideTarget? c o = none ↔ c.IsIdle o := by
  rw [Option.eq_none_iff_forall_ne_some]
  constructor
  · exact fun h n hn t ht hover => h t (overrideTarget?_eq_some_iff.2 ⟨n, hn, ht, hover⟩)
  · intro h t ht
    obtain ⟨n, hn, ht, hover⟩ := overrideTarget?_eq_some_iff.1 ht
    exact h n hn t ht hover

/-- An override of a class that is left is not idle. -/
lemma IsIdle.overrides_ne (h : c.IsIdle o) (hn : c.get? n = some t) (ht : t.overrides = none) :
    o.overrides ≠ some n :=
  fun hover => h n hover t hn ht

/-- The reports that definitions of a class are displaced. -/
def redefinitions (cls : String) (ps : List (Fragment × Fragment)) : List Diagnostic :=
  ps.map fun p => shadowDiagnostic cls p.1 p.2

lemma redefinitions_append (cls : String) (ps qs : List (Fragment × Fragment)) :
    redefinitions cls (ps ++ qs) = redefinitions cls ps ++ redefinitions cls qs :=
  List.map_append

lemma defineIn_eq (cls : String) (s : Record × Journal) (key : MemberKey) (f : Fragment) :
    defineIn cls s key f =
      (s.1.define key (f.ownedBy cls), s.2 ++ s.1.defineJournal key (f.ownedBy cls)) := rfl

/-- What is displaced is reported, in the same order. -/
lemma diagnostics_foldl_defineIn (cls : String) (ms : List (MemberKey × Fragment))
    (s : Record × Journal) :
    (ms.foldl (fun s m => defineIn cls s m.1 m.2) s).2.diagnostics =
      s.2.diagnostics ++
        redefinitions s.1.name (displaced s.1.members.entries (handed cls ms)) := by
  induction ms generalizing s with
  | nil => simp [displaced, redefinitions]
  | cons m ms ih =>
    have hline : displaced (s.1.define m.1 (m.2.ownedBy cls)).members.entries (handed cls ms) =
        displaced (s.1.members.entries ++ [(m.1, m.2.ownedBy cls)]) (handed cls ms) :=
      displaced_congr (lastOf_absorb cls s.1 [m]) _
    have hone : (s.1.defineJournal m.1 (m.2.ownedBy cls)).diagnostics =
        redefinitions s.1.name
          ((lastOf s.1.members.entries m.1).map (·, m.2.ownedBy cls)).toList := by
      rw [lastOf_entries, defineJournal]
      cases s.1.members.get? m.1 <;> rfl
    rw [List.foldl_cons, ih, defineIn_eq, hline, Journal.diagnostics_append, hone, List.append_assoc]
    change _ ++ (_ ++ redefinitions s.1.name _) = _
    rw [← redefinitions_append]
    rfl

lemma diagnostics_applyOverride (c : Catalog) (o : Record) :
    (applyOverride c o).2.diagnostics =
      (overrideTarget? c o).elim [missingTarget o] fun t =>
        redefinitions t.name (displaced t.members.entries (handed t.name o.members.entries)) := by
  rw [applyOverride]
  cases overrideTarget? c o with
  | none => rfl
  | some t =>
    exact diagnostics_foldl_defineIn t.name o.members.entries (t, [])

/-- What an override is folded into is the class that it finds at first, with the overrides so far. -/
lemma overrideTarget?_foldl_overrideStep (h : c.IsNamed)
    (ha : ∀ r ∈ applied, r ∈ c.values ∧ r.overrides ≠ none) (o : Record) :
    overrideTarget? (applied.foldl overrideStep { classes := c }).classes o =
      (overrideTarget? c o).map fun t =>
        t.overlay t.name (applied.filter (·.overrides = some t.name)) := by
  rw [overrideTarget?, overrideTarget?]
  cases o.overrides with
  | none => rfl
  | some n =>
    rw [Option.bind_some, Option.bind_some, get?_foldl_overrideStep h applied ha, afterOverrides]
    cases hn : c.get? n with
    | none => rfl
    | some t =>
      cases ht : t.overrides with
      | none => simp [ht, Option.filter_some, h n t hn]
      | some m =>
        -- an override is no target, whether it has been removed or not
        by_cases hgone : n ∈ applied.map Record.name <;> simp [ht, Option.filter_some, hgone]

/-! ### Names -/

lemma IsNamed.keys_eq (h : c.IsNamed) : OrderedMap.keys c = c.values.map Record.name := by
  rw [OrderedMap.keys, OrderedMap.values, List.map_map]
  exact List.map_congr_left fun e he => (h e.1 e.2 (OrderedMap.get?_eq_some_iff.2 he)).symm

lemma keys_applyOverride (h : c.IsNamed) (o : Record) :
    OrderedMap.keys (applyOverride c o).1 = OrderedMap.keys c := by
  rw [applyOverride]
  cases htarget : overrideTarget? c o with
  | none => rfl
  | some t =>
    obtain ⟨n, -, hn, -⟩ := overrideTarget?_eq_some_iff.1 htarget
    have hmem : t.name ∈ OrderedMap.keys c := by
      rw [h n t hn, ← OrderedMap.get?_isSome_iff, hn]
      rfl
    exact (OrderedMap.keys_insert ..).trans (if_pos hmem)

lemma isNamed_foldl_overrideStep (h : c.IsNamed)
    (ha : ∀ r ∈ applied, r ∈ c.values ∧ r.overrides ≠ none) :
    IsNamed (applied.foldl overrideStep { classes := c }).classes :=
  fun n _ ht => afterOverrides_name h (get?_foldl_overrideStep h applied ha n ▸ ht)

/-- Overrides go, and nothing else changes its place. -/
lemma keys_foldl_overrideStep (h : c.IsNamed) (ha : ∀ r ∈ applied, r ∈ c.values ∧ r.overrides ≠ none) :
    OrderedMap.keys (applied.foldl overrideStep { classes := c }).classes =
      (OrderedMap.keys c).filter (· ∉ applied.map Record.name) := by
  induction applied using List.reverseRecOn with
  | nil => exact (List.filter_eq_self.2 fun _ _ => by simp).symm
  | append_singleton applied o ih =>
    have ha' := fun r hr => ha r (List.mem_append_left _ hr)
    rw [List.foldl_append, List.foldl_cons, List.foldl_nil, overrideStep, OrderedMap.keys_erase,
      keys_applyOverride (isNamed_foldl_overrideStep h ha'), ih ha', List.filter_filter]
    refine List.filter_congr fun n _ => ?_
    rw [Bool.eq_iff_iff]
    simp only [Bool.and_eq_true, decide_eq_true_eq, List.map_append, List.mem_append, not_or,
      List.map_singleton, List.mem_singleton, and_comm, ne_eq]

/-! ### Reports -/

/-- The reports that come of applying some overrides to a catalog: in its classes, each displaced
definition, and of idle overrides, each one. -/
structure Reports (c : Catalog) (applied : List Record) (ds : List Diagnostic) : Prop where
  displaced : ∀ n t, c.get? n = some t → t.overrides = none →
    (ds.filter fun d => d.kind = .duplicateDefinition ∧ d.cls = some n) =
      redefinitions n (Fragment.displaced t.members.entries
        (handed n (offered (applied.filter (·.overrides = some n)))))
  idle : ds.filter (·.kind = .unresolvedReference) = (applied.filter (c.IsIdle ·)).map missingTarget
  all : ∀ d ∈ ds, d.kind = .unresolvedReference ∨
    d.kind = .duplicateDefinition ∧ ∃ n t, d.cls = some n ∧ c.get? n = some t ∧ t.overrides = none

lemma reports_nil (c : Catalog) : c.Reports [] [] := by
  constructor <;> simp [redefinitions, Fragment.displaced]

lemma Reports.idle_concat {ds : List Diagnostic} (h : c.Reports applied ds) (ho : c.IsIdle o) :
    c.Reports (applied ++ [o]) (ds ++ [missingTarget o]) where
  displaced n t hn ht := by
    have hkind : (missingTarget o).kind ≠ .duplicateDefinition := by simp [missingTarget]; decide
    rw [List.filter_append, h.displaced n t hn ht, List.filter_append]
    simp [hkind, ho.overrides_ne hn ht]
  idle := by
    have hkind : (missingTarget o).kind = .unresolvedReference := rfl
    rw [List.filter_append, h.idle, List.filter_append, List.map_append]
    simp [hkind, ho]
  all d hd := by
    rcases List.mem_append.1 hd with hd | hd
    · exact h.all d hd
    · exact .inl (by rw [List.mem_singleton.1 hd]; rfl)

lemma mem_redefinitions {cls : String} {ps : List (Fragment × Fragment)} {d : Diagnostic}
    (hd : d ∈ redefinitions cls ps) : d.kind = .duplicateDefinition ∧ d.cls = some cls := by
  obtain ⟨p, -, rfl⟩ := List.mem_map.1 hd
  exact ⟨rfl, rfl⟩

lemma filter_redefinitions (cls n : String) (ps : List (Fragment × Fragment)) :
    ((redefinitions cls ps).filter fun d => d.kind = .duplicateDefinition ∧ d.cls = some n) =
      if cls = n then redefinitions cls ps else [] := by
  split
  · next hn => exact List.filter_eq_self.2 fun d hd => by simpa [hn] using mem_redefinitions hd
  · next hn => exact List.filter_eq_nil_iff.2 fun d hd => by simp [mem_redefinitions hd, hn]

lemma filter_unresolved_redefinitions (cls : String) (ps : List (Fragment × Fragment)) :
    (redefinitions cls ps).filter (·.kind = .unresolvedReference) = [] := by
  have hkind : DiagnosticKind.duplicateDefinition ≠ .unresolvedReference := by decide
  exact List.filter_eq_nil_iff.2 fun d hd => by simp [mem_redefinitions hd, hkind]

lemma Reports.folded_concat {ds : List Diagnostic} (h : c.Reports applied ds)
    (hover : o.overrides = some n) (hn : c.get? n = some t) (ht : t.overrides = none) :
    c.Reports (applied ++ [o]) (ds ++ redefinitions n
      (Fragment.displaced (t.overlay n (applied.filter (·.overrides = some n))).members.entries
        (handed n o.members.entries))) where
  displaced m u hm hu := by
    rw [List.filter_append, h.displaced m u hm hu, filter_redefinitions, List.filter_append]
    by_cases hmn : n = m
    · subst hmn
      obtain rfl : t = u := Option.some_inj.1 (hn.symm.trans hm)
      -- the line so far is what is in the table, as far as it matters
      have hline := displaced_congr
        (lastOf_absorb n t (offered (applied.filter (·.overrides = some n))))
        (handed n o.members.entries)
      rw [if_pos rfl, overlay_eq_absorb, hline, ← redefinitions_append, ← displaced_append,
        ← handed_append]
      simp [hover]
    · simp [hover, hmn]
  idle := by
    have hidle : ¬c.IsIdle o := fun hidle => hidle.overrides_ne hn ht hover
    rw [List.filter_append, h.idle, filter_unresolved_redefinitions, List.filter_append]
    simp [hidle]
  all d hd := by
    rcases List.mem_append.1 hd with hd | hd
    · exact h.all d hd
    · obtain ⟨hkind, hcls⟩ := mem_redefinitions hd
      exact .inr ⟨hkind, n, t, hcls, hn, ht⟩

lemma reports_foldl_overrideStep (h : c.IsNamed)
    (ha : ∀ r ∈ applied, r ∈ c.values ∧ r.overrides ≠ none) :
    c.Reports applied (applied.foldl overrideStep { classes := c }).journal.diagnostics := by
  induction applied using List.reverseRecOn with
  | nil => exact reports_nil c
  | append_singleton applied o ih =>
    have ha' := fun r hr => ha r (List.mem_append_left _ hr)
    have ih := ih ha'
    rw [List.foldl_append, List.foldl_cons, List.foldl_nil, overrideStep, Journal.diagnostics_append,
      diagnostics_applyOverride, overrideTarget?_foldl_overrideStep h ha']
    cases htarget : overrideTarget? c o with
    | none => exact ih.idle_concat (overrideTarget?_eq_none_iff.1 htarget)
    | some t =>
      obtain ⟨n, hover, hn, ht⟩ := overrideTarget?_eq_some_iff.1 htarget
      obtain rfl := h n t hn
      simpa using ih.folded_concat hover hn ht

/-! ### All overrides -/

lemma mem_overriding {r : Record} (hr : r ∈ c.values.filter (·.overrides.isSome)) :
    r ∈ c.values ∧ r.overrides ≠ none := by
  rwa [List.mem_filter, Option.isSome_iff_ne_none] at hr

lemma IsNamed.eq_of_name_eq (h : c.IsNamed) (hr : r ∈ c.values) (ho : o ∈ c.values)
    (hname : r.name = o.name) : r = o := by
  have hget := h.get?_name hr
  rw [hname, h.get?_name ho] at hget
  exact (Option.some_inj.1 hget).symm

lemma keys_applyOverrides (h : c.IsNamed) :
    OrderedMap.keys (applyOverrides c).classes =
      (c.values.filter (·.overrides.isNone)).map Record.name := by
  rw [applyOverrides, keys_foldl_overrideStep h fun r hr => mem_overriding hr, h.keys_eq,
    List.filter_map]
  refine congrArg (List.map Record.name) (List.filter_congr fun r hr => ?_)
  rw [Function.comp_apply, Bool.eq_iff_iff, decide_eq_true_iff, Option.isNone_iff_eq_none,
    List.mem_map]
  constructor
  · intro hnot
    by_contra hover
    exact hnot ⟨r, List.mem_filter.2 ⟨hr, Option.isSome_iff_ne_none.2 hover⟩, rfl⟩
  · rintro hnone ⟨o, ho, hname⟩
    obtain ⟨ho, hover⟩ := mem_overriding ho
    exact hover (h.eq_of_name_eq ho hr hname ▸ hnone)

/-- A catalog with other members in one of its records. -/
def withMembers (c : Catalog) (n : String) (ms : OrderedMap MemberKey Fragment) : Catalog :=
  c.modify n ({ · with members := ms })

lemma get?_withMembers (c : Catalog) (m n : String) (ms : OrderedMap MemberKey Fragment) :
    (c.withMembers m ms).get? n =
      (c.get? n).map fun r => if n = m then { r with members := ms } else r :=
  OrderedMap.get?_map ..

lemma IsNamed.withMembers (h : c.IsNamed) (m : String) (ms : OrderedMap MemberKey Fragment) :
    (c.withMembers m ms).IsNamed := by
  intro n r hr
  rw [get?_withMembers, Option.map_eq_some_iff] at hr
  obtain ⟨r, hr, rfl⟩ := hr
  split <;> exact h n r hr

/-- The overrides of a class are the same if it is not the class of the record that gets other members. -/
lemma overridesOf_withMembers (h : c.IsNamed) (ho : o ∈ c.values) (hover : o.overrides ≠ some n)
    (ms : OrderedMap MemberKey Fragment) :
    (c.withMembers o.name ms).overridesOf n = c.overridesOf n := by
  let change : Record → Record := fun r => if r.name = o.name then { r with members := ms } else r
  have hvalues : OrderedMap.values (c.withMembers o.name ms) = c.values.map change := by
    simp only [Catalog.withMembers, OrderedMap.modify, OrderedMap.values, OrderedMap.map, List.map_map]
    refine List.map_congr_left fun e he => ?_
    simp only [Function.comp_apply, change, h e.1 e.2 (OrderedMap.get?_eq_some_iff.2 he)]
  have hchange : ∀ r, (change r).overrides = r.overrides := by
    intro r
    simp only [change]
    split <;> rfl
  rw [overridesOf, hvalues, List.filter_map]
  simp only [Function.comp_def, hchange]
  refine (List.map_congr_left fun r hr => ?_).trans (List.map_id _)
  obtain ⟨hr, hrn⟩ := List.mem_filter.1 hr
  have hne : r.name ≠ o.name := fun hname =>
    hover (h.eq_of_name_eq hr ho hname ▸ of_decide_eq_true hrn)
  exact if_neg hne

/-- Which members an idle override has makes no difference. -/
lemma get?_applyOverrides_withMembers (h : c.IsNamed) (ho : o ∈ c.values) (hover : o.overrides ≠ none)
    (hidle : c.IsIdle o) (ms : OrderedMap MemberKey Fragment) (n : String) :
    (applyOverrides (c.withMembers o.name ms)).classes.get? n = (applyOverrides c).classes.get? n := by
  rw [get?_applyOverrides h, get?_applyOverrides (h.withMembers o.name ms), get?_withMembers]
  cases hn : c.get? n with
  | none => rfl
  | some t =>
    by_cases hname : n = o.name
    · obtain rfl : o = t := by
        rw [hname, h.get?_name ho] at hn
        exact Option.some_inj.1 hn
      simp [hname, hover]
    · by_cases ht : t.overrides = none
      · simp [hname, ht, overridesOf_withMembers h ho (hidle.overrides_ne hn ht)]
      · simp [hname, ht]

/-- What is left of a catalog is what comes of folding each override into its target. -/
structure FoldsOverrides (c : Catalog) (e : Enriched) : Prop where
  /-- The classes that override nothing are left, in their order. -/
  keys : OrderedMap.keys e.classes = (c.values.filter (·.overrides.isNone)).map Record.name
  overrides : ∀ r ∈ e.classes.values, r.overrides = none
  /-- The others are named. -/
  names : e.names = (c.values.filter (·.overrides.isSome)).map Record.name
  folded : ∀ n t, c.get? n = some t → t.overrides = none →
    ∃ t', e.classes.get? n = some t' ∧ t.IsFolded n (c.overridesOf n) t'
  untouched : ∀ n t, c.get? n = some t → t.overrides = none → c.overridesOf n = [] →
    e.classes.get? n = some t
  displaced : ∀ n t, c.get? n = some t → t.overrides = none →
    (e.journal.diagnostics.filter fun d => d.kind = .duplicateDefinition ∧ d.cls = some n) =
      redefinitions n
        (Fragment.displaced t.members.entries (handed n (offered (c.overridesOf n))))
  /-- Of the overrides, the idle ones are reported, once each. -/
  idle : e.journal.diagnostics.filter (·.kind = .unresolvedReference) =
    (c.values.filter fun o => o.overrides.isSome ∧ c.IsIdle o).map missingTarget
  reports : ∀ d ∈ e.journal.diagnostics, d.kind = .unresolvedReference ∨
    d.kind = .duplicateDefinition ∧ ∃ n t, d.cls = some n ∧ c.get? n = some t ∧ t.overrides = none
  /-- The members of an idle override get nowhere. -/
  withMembers : ∀ o ∈ c.values, o.overrides ≠ none → c.IsIdle o → ∀ ms n,
    (applyOverrides (c.withMembers o.name ms)).classes.get? n = e.classes.get? n

/-- Overrides fold into their targets, whichever of the other overrides have been removed before. -/
theorem applyOverrides_folds (h : c.IsNamed) : c.FoldsOverrides (applyOverrides c) := by
  have hget : ∀ n t, c.get? n = some t → t.overrides = none →
      (applyOverrides c).classes.get? n = some (t.overlay n (c.overridesOf n)) := by
    intro n t hn ht
    rw [get?_applyOverrides h, hn, Option.bind_some, if_pos ht]
  have hreports : c.Reports (c.values.filter (·.overrides.isSome))
      (applyOverrides c).journal.diagnostics :=
    reports_foldl_overrideStep h fun r hr => mem_overriding hr
  constructor
  case keys => exact keys_applyOverrides h
  case overrides =>
    intro r hr
    obtain ⟨⟨n, r⟩, he, rfl⟩ := List.mem_map.1 hr
    have hn := OrderedMap.get?_eq_some_iff.2 he
    rw [get?_applyOverrides h, Option.bind_eq_some_iff] at hn
    obtain ⟨t, -, ht⟩ := hn
    split at ht
    · next hnone => rw [← Option.some_inj.1 ht, overrides_overlay, hnone]
    · simp at ht
  case names => exact names_foldl_overrideStep ..
  case folded => exact fun n t hn ht => ⟨_, hget n t hn ht, isFolded_overlay n _ t⟩
  case untouched =>
    intro n t hn ht hnone
    rw [hget n t hn ht, hnone]
    rfl
  case displaced =>
    intro n t hn ht
    rw [hreports.displaced n t hn ht, filter_overriding]
  case idle =>
    rw [hreports.idle, List.filter_filter]
    refine congrArg (List.map missingTarget) (List.filter_congr fun o _ => ?_)
    rw [Bool.decide_and, Bool.and_comm, Bool.decide_eq_true]
  case reports => exact hreports.all
  case withMembers => exact fun o ho hover hidle => get?_applyOverrides_withMembers h ho hover hidle

/-- Methods of a class, each with a text. -/
def methods (cls : String) (ms : List (String × String)) : OrderedMap MemberKey Fragment :=
  .ofList <| ms.map fun m =>
    (⟨.method, m.1⟩, { subject := .member .method, name := m.1, owner := some cls, doc := m.2 })

/-- Two overrides of one class that share a method, with overrides of theirs before and after them, an
override of itself and one of a class that does not exist. -/
def patches : Catalog := .ofList <|
  [{ name := "Early", overrides := some "Patch", members := methods "Early" [("draw", "early")] },
    { name := "Base", members := methods "Base" [("draw", "base"), ("hide", "base")] },
    { name := "Patch", overrides := some "Base",
      members := methods "Patch" [("load", "patch"), ("draw", "patch")] },
    { name := "Self", overrides := some "Self", members := methods "Self" [("draw", "self")] },
    { name := "Repatch", overrides := some "Base",
      members := methods "Repatch" [("draw", "repatch"), ("save", "repatch")] },
    { name := "Late", overrides := some "Repatch", members := methods "Late" [("save", "late")] },
    { name := "Lost", overrides := some "Nowhere", members := methods "Lost" [("draw", "lost")] },
    { name := "Plain" }].map fun r => (r.name, r)

theorem applyOverrides_folds_patches :
    patches.IsNamed ∧
      let e := applyOverrides patches
      OrderedMap.keys e.classes = ["Base", "Plain"] ∧
      e.names = ["Early", "Patch", "Self", "Repatch", "Late", "Lost"] ∧
      (∃ r, e.classes.get? "Base" = some r ∧
        r.members.keys.map (·.name) = ["draw", "hide", "load", "save"] ∧
        (r.members.get? ⟨.method, "draw"⟩).map (fun f => (f.owner, f.doc)) =
          some (some "Base", "repatch") ∧
        r.shadowed.map (·.doc) = ["base", "patch"]) ∧
      (e.journal.diagnostics.filter (·.kind = .unresolvedReference)).map (·.cls) =
        [some "Early", some "Self", some "Late", some "Lost"] := by
  have hnamed : patches.IsNamed := by
    have hall : ∀ e ∈ patches.entries, e.2.name = e.1 := by decide
    exact fun n r hr => hall (n, r) (OrderedMap.get?_eq_some_iff.1 hr)
  have h := applyOverrides_folds hnamed
  refine ⟨hnamed, h.keys.trans (by decide), h.names.trans (by decide), ?_, ?_⟩
  · obtain ⟨r, hr, hfolded⟩ := h.folded "Base" _ rfl rfl
    refine ⟨r, hr, ?_, ?_, ?_⟩
    · rw [hfolded.keys]
      decide
    · rw [hfolded.get?]
      decide
    · rw [hfolded.shadowed]
      decide
  · rw [h.idle]
    decide

end Catalog

end DocGraph
