import DocGraph.Graph.Cycles
import DocGraph.Graph.Lint
import Mathlib.Data.List.Count
import Mathlib.Data.List.Nodup
import Mathlib.Tactic.Common

/-!
# Flaws and what they stand for

Each earlier report of a replaced definition stands for one definition that a class has as shadowed. As
long as there are enough reports for every class and every name, no replaced definition is a flaw. The
other flaws are told from these by the words they begin with.

By its first letter, a reference to a class that was not found is told from all other flaws, and by the
rest, from every other reference. So the flaws of this kind are the unresolved references of the graph.
-/

namespace DocGraph

namespace Lint

variable {left : Reported} {c : DocClass} {cs : List DocClass} {fs : List Fragment}
  {o : LintOptions} {unresolved : List String} {d : Diagnostic}

/-! ### Earlier reports -/

@[simp] lemma reported_append (ds ds' : List Diagnostic) :
    reported (ds ++ ds') = reported ds ++ reported ds' := by
  simp [reported]

lemma count_reported (ds : List Diagnostic) (cls member : Option String) :
    (reported ds).count (cls, member) =
      (ds.filter fun d => d.kind = .duplicateDefinition ∧ d.cls = cls ∧ d.member = member).length := by
  rw [reported, ← List.countP_eq_length_filter, List.count, List.countP_map, List.countP_filter]
  refine List.countP_congr fun d _ => ?_
  simp [and_comm]

/-- Some shadowed definitions of a class have all been reported. -/
def Covers (left : Reported) (cls : String) (fs : List Fragment) : Prop :=
  ∀ n, (fs.map Fragment.name).count n ≤ left.count (some cls, some n)

lemma Covers.append {ds : List Diagnostic} {cls : String} (h : Covers (reported ds) cls fs)
    (ds' : List Diagnostic) : Covers (reported (ds ++ ds')) cls fs := by
  intro n
  rw [reported_append, List.count_append]
  exact Nat.le_trans (h n) (Nat.le_add_right ..)

lemma Covers.mem {f : Fragment} {cls : String} (h : Covers left cls (f :: fs)) :
    (some cls, some f.name) ∈ left := by
  have hcount := h f.name
  rw [List.map_cons, List.count_cons_self] at hcount
  exact List.count_pos_iff.1 (by omega)

lemma Covers.erase {f : Fragment} {cls : String} (h : Covers left cls (f :: fs)) :
    Covers (left.erase (some cls, some f.name)) cls fs := by
  intro n
  have hcount := h n
  by_cases hn : f.name = n
  · subst hn
    rw [List.map_cons, List.count_cons_self] at hcount
    rw [List.count_erase_self]
    omega
  · have hne : (some cls, some n) ≠ (some cls, some f.name) := by
      simpa using fun h : n = f.name => hn h.symm
    rwa [List.map_cons, List.count_cons_of_ne hn, ← List.count_erase_of_ne hne] at hcount

/-- Definitions that have been reported are no flaws, and their reports are the only ones used up. -/
lemma shadowed_of_covers (h : Covers left c.name fs) :
    (shadowed c left fs).1 = [] ∧
      ∀ cls n, cls ≠ c.name →
        (shadowed c left fs).2.count (some cls, some n) = left.count (some cls, some n) := by
  induction fs generalizing left with
  | nil => exact ⟨rfl, fun _ _ _ => rfl⟩
  | cons f fs ih =>
    obtain ⟨hnone, hleft⟩ := ih h.erase
    simp only [shadowed, h.mem, if_true]
    refine ⟨hnone, fun cls n hne => ?_⟩
    rw [hleft cls n hne]
    apply List.count_erase_of_ne
    simp [hne]

/-! ### Wording -/

/-- A diagnostic says that something is a duplicate. -/
def SaysDuplicate (d : Diagnostic) : Prop :=
  ∃ (subject : Subject) (rest : String), d.message = "Duplicate " ++ subject.name ++ " " ++ rest

lemma not_saysDuplicate_of_head? (h : d.message.toList.head? ≠ some 'D') : ¬SaysDuplicate d := by
  rintro ⟨subject, rest, hmessage⟩
  apply h
  simp [hmessage, String.toList_append]

lemma not_saysDuplicate_of_mem_references (h : d ∈ references unresolved c) : ¬SaysDuplicate d := by
  obtain ⟨_, -, rfl⟩ := List.mem_map.1 h
  apply not_saysDuplicate_of_head?
  simp [ofClass, String.toList_append]

lemma mem_params_cases {m : Member} {seen : List String} {optional : Bool} {ps : List Param}
    (h : d ∈ params o c m seen optional ps) :
    ∃ p ∈ ps, d = ofMember c m ("Duplicate parameter " ++ p.name ++ " in " ++ m.ref.text) ∨
      d = ofMember c m ("Undocumented parameter " ++ p.name ++ " of " ++ m.ref.text) ∨
      d = ofMember c m ("Required parameter " ++ p.name ++ " after optional in " ++ m.ref.text) := by
  induction ps generalizing seen optional with
  | nil => simp [params] at h
  | cons p ps ih =>
    simp only [params, List.mem_append, List.mem_ite_nil_right, List.mem_singleton] at h
    rcases h with ((⟨-, hd⟩ | ⟨-, hd⟩) | ⟨-, hd⟩) | h
    · exact ⟨p, List.mem_cons_self .., .inl hd⟩
    · exact ⟨p, List.mem_cons_self .., .inr (.inl hd)⟩
    · exact ⟨p, List.mem_cons_self .., .inr (.inr hd)⟩
    · obtain ⟨p', hp', hd⟩ := ih h
      exact ⟨p', List.mem_cons_of_mem _ hp', hd⟩

/-- Flaws of parameters speak of parameters, which is no word for a class or a member. -/
lemma not_saysDuplicate_of_mem_params {m : Member} {seen : List String} {optional : Bool}
    {ps : List Param} (h : d ∈ params o c m seen optional ps) : ¬SaysDuplicate d := by
  obtain ⟨p, -, rfl | rfl | rfl⟩ := mem_params_cases h
  · rintro ⟨subject, rest, hmessage⟩
    have hchars := congrArg String.toList hmessage
    cases subject with
    | cls => simp [ofMember, Subject.name, String.toList_append] at hchars
    | member kind =>
      cases kind <;>
        simp [ofMember, Subject.name, MemberKind.name, String.toList_append] at hchars
  · apply not_saysDuplicate_of_head?
    simp [ofMember, String.toList_append]
  · apply not_saysDuplicate_of_head?
    simp [ofMember, String.toList_append]

lemma not_saysDuplicate_of_mem_member {m : Member} (h : d ∈ member o c m) : ¬SaysDuplicate d := by
  rcases List.mem_append.1 h with h | h
  · simp only [List.mem_ite_nil_right, List.mem_singleton] at h
    obtain ⟨-, rfl⟩ := h
    apply not_saysDuplicate_of_head?
    simp [ofMember, String.toList_append]
  · split at h
    · exact not_saysDuplicate_of_mem_params h
    · simp at h

lemma not_saysDuplicate_of_mem_cls (hcovers : Covers left c.name c.shadowed)
    (h : d ∈ (cls o unresolved c left).1) : ¬SaysDuplicate d := by
  simp only [cls, (shadowed_of_covers hcovers).1, List.append_nil, List.mem_append,
    List.mem_ite_nil_right, List.mem_singleton] at h
  rcases h with (h | ⟨-, rfl⟩) | h
  · exact not_saysDuplicate_of_mem_references h
  · apply not_saysDuplicate_of_head?
    simp [ofClass, String.toList_append]
  · obtain ⟨m, -, hm⟩ := List.mem_flatMap.1 h
    exact not_saysDuplicate_of_mem_member hm

/-! ### Graphs -/

lemma not_saysDuplicate_of_mem_classes (hd : (cs.map DocClass.name).Nodup)
    (hcovers : ∀ c ∈ cs, Covers left c.name c.shadowed) (h : d ∈ classes o unresolved left cs) :
    ¬SaysDuplicate d := by
  induction cs generalizing left with
  | nil => simp [classes] at h
  | cons c cs ih =>
    rw [List.map_cons, List.nodup_cons] at hd
    have hc := hcovers c (List.mem_cons_self ..)
    rcases List.mem_append.1 h with h | h
    · exact not_saysDuplicate_of_mem_cls hc h
    · -- the reports about the other classes are still there
      refine ih hd.2 (fun c' hc' n => ?_) h
      have hne : c'.name ≠ c.name := fun he => hd.1 (he ▸ List.mem_map_of_mem hc')
      have hleft := (shadowed_of_covers hc).2 c'.name n hne
      exact hleft ▸ hcovers c' (List.mem_cons_of_mem _ hc') n

/-! ### References -/

/-- The report that a class refers to one that was not found. -/
def notFound (c : DocClass) (kind : ClassGraph.EdgeKind) (n : String) : Diagnostic :=
  ofClass c ("Class " ++ n ++ " referenced in " ++ kind.name ++ " of " ++ c.name ++ " not found")

lemma mem_namedReferences {p : String × String} (h : p ∈ namedReferences c) :
    ∃ kind : ClassGraph.EdgeKind, p = (kind.name, p.2) := by
  rcases List.mem_append.1 h with h | h
  · obtain ⟨n, -, rfl⟩ := List.mem_map.1 h
    exact ⟨.parent, rfl⟩
  · obtain ⟨n, -, rfl⟩ := List.mem_map.1 h
    exact ⟨.mixin, rfl⟩

/-- The report tells which name was not found, and by which edge it was referred to. -/
lemma notFound_inj {c c' : DocClass} {kind kind' : ClassGraph.EdgeKind} {n n' : String}
    (h : notFound c kind n = notFound c' kind' n') : c.name = c'.name ∧ kind = kind' ∧ n = n' := by
  have hname : c.name = c'.name := Option.some.inj (congrArg Diagnostic.cls h)
  have hchars : (n.toList ++ " referenced in ".toList ++ kind.name.toList) =
      n'.toList ++ " referenced in ".toList ++ kind'.name.toList := by
    have hmessage := congrArg (fun d => d.message.toList) h
    simp only [notFound, ofClass, hname, String.toList_append, List.append_assoc,
      List.append_cancel_left_eq] at hmessage
    simp only [← List.append_assoc, List.append_cancel_right_eq] at hmessage
    exact hmessage
  have hkind : kind = kind' := by
    have hreverse := congrArg List.reverse hchars
    cases kind <;> cases kind' <;> simp [ClassGraph.EdgeKind.name] at hreverse ⊢
  subst hkind
  exact ⟨hname, rfl, String.toList_inj.1 (List.append_cancel_right (List.append_cancel_right hchars))⟩

lemma mem_references_iff {kind : ClassGraph.EdgeKind} {n : String} :
    notFound c kind n ∈ references unresolved c ↔
      (kind.name, n) ∈ namedReferences c ∧ n ∈ unresolved := by
  simp only [references, List.mem_map, List.mem_filter, List.contains_iff_mem]
  constructor
  · rintro ⟨p, ⟨hp, hunresolved⟩, heq⟩
    obtain ⟨kind', hkind⟩ := mem_namedReferences hp
    rw [hkind] at heq hp
    have hreport : notFound c kind' p.2 = notFound c kind n := heq
    obtain ⟨-, rfl, rfl⟩ := notFound_inj hreport
    exact ⟨hp, hunresolved⟩
  · rintro ⟨hp, hunresolved⟩
    exact ⟨(kind.name, n), ⟨hp, hunresolved⟩, rfl⟩

lemma head?_of_mem_params {m : Member} {seen : List String} {optional : Bool} {ps : List Param}
    (h : d ∈ params o c m seen optional ps) : d.message.toList.head? ≠ some 'C' := by
  obtain ⟨p, -, rfl | rfl | rfl⟩ := mem_params_cases h <;>
    simp [ofMember, String.toList_append]

lemma head?_of_mem_shadowed (h : d ∈ (shadowed c left fs).1) :
    d.message.toList.head? ≠ some 'C' := by
  induction fs generalizing left with
  | nil => simp [shadowed] at h
  | cons f fs ih =>
    rw [shadowed] at h
    dsimp only at h
    split at h
    · exact ih h
    · rcases List.mem_cons.1 h with rfl | h
      · simp [ofClass, String.toList_append]
      · exact ih h

/-- All flaws of a class but its references begin with another letter. -/
lemma mem_cls_iff (hd : d.message.toList.head? = some 'C') :
    d ∈ (cls o unresolved c left).1 ↔ d ∈ references unresolved c := by
  constructor
  · intro h
    simp only [cls, List.mem_append, List.mem_ite_nil_right, List.mem_singleton] at h
    rcases h with ((h | h) | ⟨-, rfl⟩) | h
    · exact h
    · exact absurd hd (head?_of_mem_shadowed h)
    · simp [ofClass, String.toList_append] at hd
    · obtain ⟨m, -, hm⟩ := List.mem_flatMap.1 h
      rcases List.mem_append.1 hm with hm | hm
      · simp only [List.mem_ite_nil_right, List.mem_singleton] at hm
        obtain ⟨-, rfl⟩ := hm
        simp [ofMember, String.toList_append] at hd
      · split at hm
        · exact absurd hd (head?_of_mem_params hm)
        · simp at hm
  · intro h
    simp only [cls, List.mem_append]
    exact .inl (.inl (.inl h))

lemma mem_classes_iff (hd : d.message.toList.head? = some 'C') :
    d ∈ classes o unresolved left cs ↔ ∃ c ∈ cs, d ∈ references unresolved c := by
  induction cs generalizing left with
  | nil => simp [classes]
  | cons c cs ih =>
    change d ∈ (cls o unresolved c left).1 ++ classes o unresolved (cls o unresolved c left).2 cs ↔ _
    rw [List.mem_append, mem_cls_iff hd, ih]
    simp

end Lint

/-- A graph whose shadowed definitions have all been reported has no duplicates among its flaws. -/
lemma ClassGraph.not_saysDuplicate_of_mem_lint {g : ClassGraph} {o : LintOptions}
    {earlier : List Diagnostic} {d : Diagnostic}
    (h : ∀ c ∈ g.classes, Lint.Covers (Lint.reported earlier) c.name c.shadowed)
    (hd : d ∈ g.lint o earlier) : ¬Lint.SaysDuplicate d :=
  Lint.not_saysDuplicate_of_mem_classes g.distinct h hd

/-- A reference is a flaw of a graph exactly if it is unresolved, whatever else is looked for. -/
lemma ClassGraph.mem_lint_notFound {g : ClassGraph} {o : LintOptions} {earlier : List Diagnostic}
    {c : DocClass} (hc : c ∈ g.classes) (kind : EdgeKind) (n : String) :
    Lint.notFound c kind n ∈ g.lint o earlier ↔
      (kind.name, n) ∈ Lint.namedReferences c ∧ n ∈ g.unresolved := by
  have hhead : (Lint.notFound c kind n).message.toList.head? = some 'C' := by
    simp [Lint.notFound, Lint.ofClass, String.toList_append]
  rw [lint, Lint.mem_classes_iff hhead, ← Lint.mem_references_iff]
  constructor
  · rintro ⟨c', hc', h⟩
    have hname : c'.name = c.name := by
      obtain ⟨p, -, heq⟩ := List.mem_map.1 h
      exact Option.some.inj (congrArg Diagnostic.cls heq)
    rwa [List.inj_on_of_nodup_map g.distinct hc' hc hname] at h
  · intro h
    exact ⟨c, hc, h⟩

end DocGraph
