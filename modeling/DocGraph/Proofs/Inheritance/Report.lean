import DocGraph.Graph.Inheritance
import Mathlib.Data.List.Basic
import Mathlib.Tactic.Common

/-!
# Reports about members

A report about inherited documentation begins with one of a few leads and goes on with the reference of the
member that it is about. It gives the class and the name of the member too. Members of one class and one
name differ in their kinds, and the words for kinds have no hyphen in them, so the report tells exactly one
member, whatever names are made of.
-/

namespace DocGraph

/-- What stands before the first hyphen tells the kind. -/
lemma MemberKind.eq_of_prefix {k k' : MemberKind} (xs ys : List Char)
    (h : k.name.toList ++ '-' :: xs <+: k'.name.toList ++ '-' :: ys) : k = k' := by
  cases k <;> cases k' <;> simp [MemberKind.name] at h ⊢

namespace Diagnostic

variable {m : Member} {r : MemberRef} {lead : String}

/-- The words with which reports about inherited documentation begin. -/
def leads : List String := ["@inheritdoc on ", "Circular @inheritdoc reference at "]

/-- A report names a member by its reference. -/
def Names (d : Diagnostic) (r : MemberRef) : Prop :=
  d.cls = some r.cls ∧ d.member = some r.key.name ∧
    ∃ lead ∈ leads, (lead ++ r.text).toList <+: d.message.toList

instance (d : Diagnostic) (r : MemberRef) : Decidable (d.Names r) :=
  inferInstanceAs (Decidable (_ ∧ _ ∧ ∃ lead ∈ leads, _))

/-- A report says that a member does not get the documentation that it asks for. -/
def IsFailureOf (d : Diagnostic) (r : MemberRef) : Prop :=
  d.Names r ∧ (d.kind = .unresolvedReference ∨
    d.message = "@inheritdoc on " ++ r.text ++ " names itself")

instance (d : Diagnostic) (r : MemberRef) : Decidable (d.IsFailureOf r) :=
  inferInstanceAs (Decidable (_ ∧ (_ ∨ _)))

/-! ### The member that is named -/

lemma eq_of_leads {lead' : String} {xs ys : List Char} (h : lead ∈ leads) (h' : lead' ∈ leads)
    (hp : lead'.toList ++ xs <+: lead.toList ++ ys) : lead' = lead := by
  simp only [leads, List.mem_cons, List.not_mem_nil, or_false] at h h'
  rcases h with rfl | rfl <;> rcases h' with rfl | rfl <;> simp at hp ⊢

lemma names_diagnostic_iff (hlead : lead ∈ leads) (kind : DiagnosticKind) (rest : String) :
    (m.diagnostic kind (lead ++ (m.ref.text ++ rest))).Names r ↔ m.ref = r := by
  constructor
  · rintro ⟨hcls, hname, lead', hlead', hp⟩
    obtain ⟨⟨cls, k, n⟩⟩ := m
    obtain ⟨cls', k', n'⟩ := r
    obtain rfl : cls = cls' := Option.some.inj hcls
    obtain rfl : n = n' := Option.some.inj hname
    simp only [Member.diagnostic, String.toList_append] at hp
    obtain rfl := eq_of_leads hlead hlead' hp
    have hkind : k' = k := by
      apply MemberKind.eq_of_prefix n.toList (n.toList ++ rest.toList)
      simpa [MemberRef.text, String.toList_append] using hp
    rw [hkind]
  · rintro rfl
    refine ⟨rfl, rfl, lead, hlead, ?_⟩
    simp [Member.diagnostic, String.toList_append]

@[simp] lemma names_circularDiagnostic : m.circularDiagnostic.Names r ↔ m.ref = r := by
  simpa [Member.circularDiagnostic] using
    names_diagnostic_iff (m := m) (r := r) (by decide) .structuralCycle ""

@[simp] lemma names_selfDiagnostic : m.selfDiagnostic.Names r ↔ m.ref = r := by
  simpa [Member.selfDiagnostic, String.append_assoc] using
    names_diagnostic_iff (m := m) (r := r) (by decide) .structuralCycle " names itself"

@[simp] lemma names_targetDiagnostic (cls name : String) :
    (m.targetDiagnostic cls name).Names r ↔ m.ref = r := by
  simpa [Member.targetDiagnostic, String.append_assoc] using
    names_diagnostic_iff (m := m) (r := r) (by decide) .unresolvedReference
      (": target " ++ cls ++ "#" ++ name ++ " not found")

@[simp] lemma names_noSourceDiagnostic : m.noSourceDiagnostic.Names r ↔ m.ref = r := by
  simpa [Member.noSourceDiagnostic, String.append_assoc] using
    names_diagnostic_iff (m := m) (r := r) (by decide) .unresolvedReference ": no parent member found"

/-! ### Failures -/

@[simp] lemma isFailureOf_selfDiagnostic : m.selfDiagnostic.IsFailureOf r ↔ m.ref = r := by
  rw [IsFailureOf, names_selfDiagnostic, and_iff_left_iff_imp]
  rintro rfl
  exact .inr rfl

@[simp] lemma isFailureOf_targetDiagnostic (cls name : String) :
    (m.targetDiagnostic cls name).IsFailureOf r ↔ m.ref = r := by
  rw [IsFailureOf, names_targetDiagnostic, and_iff_left_iff_imp]
  exact fun _ => .inl rfl

@[simp] lemma isFailureOf_noSourceDiagnostic : m.noSourceDiagnostic.IsFailureOf r ↔ m.ref = r := by
  rw [IsFailureOf, names_noSourceDiagnostic, and_iff_left_iff_imp]
  exact fun _ => .inl rfl

/-- That a target leads back to a member does not say that it gets nothing. -/
@[simp] lemma not_isFailureOf_circularDiagnostic : ¬m.circularDiagnostic.IsFailureOf r := by
  rintro ⟨-, hkind | hmessage⟩
  · exact absurd hkind (by simp [Member.circularDiagnostic, Member.diagnostic]; decide)
  · have hchars := congrArg String.toList hmessage
    simp [Member.circularDiagnostic, Member.diagnostic, String.toList_append] at hchars

end Diagnostic

/-! ### Counting reports -/

namespace Journal

variable (p : Diagnostic → Prop) [DecidablePred p]

/-- How many problems of a sort are reported. -/
def reports (j : Journal) : Nat := j.diagnostics.countP (p ·)

lemma reports_append (j k : Journal) : (j ++ k).reports p = j.reports p + k.reports p := by
  simp [reports]

lemma reports_warning (d : Diagnostic) : reports p [.warning d] = if p d then 1 else 0 := by
  rw [reports, ← List.map_singleton (f := Event.warning), diagnostics_warnings, List.countP_singleton]
  simp

/-- How often it is reported that a member does not get the documentation that it asks for. -/
def failures (j : Journal) (r : MemberRef) : Nat := j.reports (·.IsFailureOf r)

@[simp] lemma failures_nil (r : MemberRef) : failures [] r = 0 := rfl

@[simp] lemma failures_append (j k : Journal) (r : MemberRef) :
    failures (j ++ k) r = failures j r + failures k r :=
  reports_append ..

lemma failures_warning (d : Diagnostic) (r : MemberRef) :
    failures [.warning d] r = if d.IsFailureOf r then 1 else 0 :=
  reports_warning ..

@[simp] lemma failures_docInherited (r r' r'' : MemberRef) :
    failures [.docInherited r r'] r'' = 0 := rfl

end Journal

end DocGraph
