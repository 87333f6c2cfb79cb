import DocGraph.Proofs.Inheritance.Provenance
import DocGraph.Proofs.Inheritance.Report

/-!
# Requests for documentation

A member with a tag asks for documentation. The request is answered when the member is finished, and only
then: either there is a source, which is noted and of which the member has what it lacked, or there is none,
which is reported and leaves the member as it was. A member that is called for again while it is being
settled does not get an answer by that.
-/

namespace DocGraph

namespace Inheriting

variable {g : ClassGraph} {s s' : Inheriting} {m m' src : Member} {j : Journal} {r : MemberRef}

/-! ### Answers -/

/-- A member has what it asks for from a source, and it is not reported that it has not. -/
structure IsMet (s : Inheriting) (m src : Member) : Prop where
  member : s.graph.memberAt? m.ref = some (m.inherit src)
  noted : .docInherited m.ref src.ref ∈ s.journal
  failures : s.journal.failures m.ref = 0

/-- A member is as it was, and it is reported once that it does not have what it asks for. -/
structure IsUnmet (s : Inheriting) (m : Member) : Prop where
  member : s.graph.memberAt? m.ref = some m
  unnoted : ∀ r, .docInherited m.ref r ∉ s.journal
  failures : s.journal.failures m.ref = 1

/-- A member that asks for documentation gets one answer, when it is settled. One that does not ask gets
no failure reported. -/
structure Answers (s : Inheriting) (m : Member) : Prop where
  pending : m.ref ∉ s.settled →
    s.journal.failures m.ref = 0 ∧ ∀ r, .docInherited m.ref r ∉ s.journal
  settled : m.ref ∈ s.settled → m.inherits.isSome → (∃ src, IsMet s m src) ∨ IsUnmet s m
  unasked : m.inherits = none → s.journal.failures m.ref = 0

lemma answers_start (g : ClassGraph) (m : Member) : Answers { graph := g } m where
  pending _ := by simp
  settled h := by simp at h
  unasked _ := rfl

/-- A failure is reported of the member that is finished, if it asks for documentation and has no source. -/
lemma Outcome.failures_eq {src : Option Member} (ho : Outcome g s m src j) (r : MemberRef) :
    j.failures r = if m.ref = r ∧ src = none ∧ m.inherits.isSome then 1 else 0 := by
  cases ho with
  | missing ht => simp [Journal.failures_warning, Member.inherits_isSome ht]
  | itself ht => simp [Journal.failures_warning, Member.inherits_isSome ht]
  | target => simp
  | found => simp
  | unfound => by_cases hi : m.inherits.isSome <;> simp [hi, Journal.failures_warning]

/-- What happens to other members does not matter. -/
lemma Answers.of_ne (h : Answers s m) (hset : m.ref ∈ s'.settled ↔ m.ref ∈ s.settled)
    (hm : s'.graph.memberAt? m.ref = s.graph.memberAt? m.ref)
    (hj : s'.journal = s.journal ++ j) (hf : j.failures m.ref = 0)
    (hn : ∀ r, .docInherited m.ref r ∉ j) : Answers s' m where
  pending hnot := by
    obtain ⟨hfail, hnoted⟩ := h.pending (hset.not.1 hnot)
    rw [hj, Journal.failures_append, hfail, hf]
    exact ⟨rfl, fun r hr => (List.mem_append.1 hr).elim (hnoted r) (hn r)⟩
  settled hmem hi := by
    rcases h.settled (hset.1 hmem) hi with ⟨src, hmet⟩ | hunmet
    · refine .inl ⟨src, hm.trans hmet.member, ?_, ?_⟩
      · exact hj ▸ List.mem_append_left _ hmet.noted
      · rw [hj, Journal.failures_append, hmet.failures, hf]
    · refine .inr ⟨hm.trans hunmet.member, ?_, ?_⟩
      · exact fun r hr => (List.mem_append.1 (hj ▸ hr)).elim (hunmet.unnoted r) (hn r)
      · rw [hj, Journal.failures_append, hunmet.failures, hf]
  unasked hi := by rw [hj, Journal.failures_append, h.unasked hi, hf]

/-- A member that is finished gets its answer. -/
lemma Answers.finish {rest : List MemberRef} {src : Option Member} (h : Answers s m) (hs : Sound g s)
    (hm : g.HasMember m) (ha : s.active = m.ref :: rest) (ho : Outcome g s m src j) :
    Answers (s.finish m src j) m := by
  have hmem : m.ref ∈ s.active := by simp [ha]
  obtain ⟨hfail, hnoted⟩ := h.pending (hs.active_unsettled _ hmem)
  have hnow : (s.finish m src j).graph.memberAt? m.ref = some (src.elim m m.inherit) :=
    hs.memberAt?_finish hm hmem
  have hfailures : (s.finish m src j).journal.failures m.ref =
      if src = none ∧ m.inherits.isSome then 1 else 0 := by
    rw [Inheriting.finish, Journal.failures_append, hfail, ho.failures_eq]
    simp
  refine ⟨fun hnot => absurd (List.mem_cons_self ..) hnot, fun _ hi => ?_, fun hi => ?_⟩
  · cases src with
    | none =>
      refine .inr ⟨hnow, fun r hr => ?_, by simp [hfailures, hi]⟩
      rcases List.mem_append.1 hr with hr | hr
      · exact hnoted r hr
      · simpa using (ho.docInherited_mem_iff.1 hr).2
    | some src =>
      refine .inl ⟨src, hnow, ?_, by simp [hfailures]⟩
      exact List.mem_append_right _ (ho.docInherited_mem_iff.2 ⟨rfl, rfl⟩)
  · simp [hfailures, hi]

lemma Move.answers (h : Move g s s') (hs : Sound g s) (hm : g.HasMember m) (ha : Answers s m) :
    Answers s' m := by
  cases h with
  | @keep m₀ hm₀ hset _ hn =>
    by_cases hr : m.ref = m₀.ref
    · -- a member that is kept does not ask for documentation
      obtain rfl := hm₀.unique hm hr
      have hi : m.inherits = none := by
        simpa using (Bool.or_eq_false_iff.1 (Bool.eq_false_iff.2 hn)).1
      refine ⟨fun hnot => absurd (List.mem_cons_self ..) hnot, fun _ hsome => ?_, ha.unasked⟩
      simp [hi] at hsome
    · exact ha.of_ne (by simp [settle, hr]) rfl (List.append_nil _).symm rfl (by simp)
  | enter => exact ha.of_ne Iff.rfl rfl (List.append_nil _).symm rfl (by simp)
  | circular => exact ha.of_ne Iff.rfl rfl rfl (by simp [Journal.failures_warning]) (by simp)
  | @finish m₀ rest src j hm₀ hact ho =>
    by_cases hr : m.ref = m₀.ref
    · obtain rfl := hm₀.unique hm hr
      exact ha.finish hs hm hact ho
    · have hr' : m₀.ref ≠ m.ref := fun h => hr h.symm
      refine ha.of_ne (by simp [Inheriting.finish, hr]) (hs.memberAt?_finish_of_ne hm.mem_refs hr) rfl ?_ ?_
      · simp [ho.failures_eq, hr']
      · exact fun r hmem => hr (ho.docInherited_mem_iff.1 hmem).1

lemma answers_settleAll (hm : g.HasMember m) : Answers (settleAll g) m :=
  (run_settleAll g).preserves (sound_start g) (answers_start g m) fun _ _ hs ha h => h.answers hs hm ha

/-! ### All reports -/

/-- A report says that a member that asks for documentation does not get it, or that a target leads back to a
member. -/
def IsAccounted (g : ClassGraph) (d : Diagnostic) : Prop :=
  ∃ m, g.HasMember m ∧ (m.inherits.isSome ∧ d.IsFailureOf m.ref ∨ d = m.circularDiagnostic)

lemma Outcome.isAccounted {src : Option Member} (ho : Outcome g s m src j) (hm : g.HasMember m)
    {d : Diagnostic} (hd : d ∈ j.diagnostics) : IsAccounted g d := by
  refine ⟨m, hm, .inl ?_⟩
  cases ho with
  | missing ht =>
    obtain rfl := List.mem_singleton.1 hd
    exact ⟨Member.inherits_isSome ht, by simp⟩
  | itself ht =>
    obtain rfl := List.mem_singleton.1 hd
    exact ⟨Member.inherits_isSome ht, by simp⟩
  | target => nomatch hd
  | found => nomatch hd
  | unfound =>
    split at hd
    · next hi =>
      obtain rfl := List.mem_singleton.1 hd
      exact ⟨hi, by simp⟩
    · nomatch hd

lemma Move.isAccounted (h : Move g s s') (hj : ∀ d ∈ s.journal.diagnostics, IsAccounted g d) :
    ∀ d ∈ s'.journal.diagnostics, IsAccounted g d := by
  cases h with
  | keep => exact hj
  | enter => exact hj
  | @circular m hm =>
    rw [report, Journal.diagnostics_append, List.forall_mem_append]
    refine ⟨hj, fun d hd => ?_⟩
    exact ⟨m, hm, .inr (List.mem_singleton.1 hd)⟩
  | finish hm _ ho =>
    rw [Inheriting.finish, Journal.diagnostics_append, List.forall_mem_append]
    exact ⟨hj, fun d hd => ho.isAccounted hm hd⟩

lemma isAccounted_settleAll : ∀ d ∈ (settleAll g).journal.diagnostics, IsAccounted g d :=
  (run_settleAll g).preserves (P := fun s => ∀ d ∈ s.journal.diagnostics, IsAccounted g d)
    (sound_start g) (by simp) fun _ _ _ hj h => h.isAccounted hj

end Inheriting

namespace ClassGraph

open Inheriting

variable {g : ClassGraph} {m m' : Member}

/-- What becomes of a member that asks for documentation. -/
inductive IsAnswered (g : ClassGraph) (m m' : Member) : Prop
  /-- An origin is set, and no failure is reported. -/
  | met {r : MemberRef} (origin : m'.inheritedFrom = some r) (sets : g.SetsOrigin m.ref r)
      (failures : g.inheritDocs.2.failures m.ref = 0)
  /-- No origin is set, nothing changes, and one failure is reported. -/
  | unmet (same : m' = m) (unset : ∀ r, ¬g.SetsOrigin m.ref r)
      (failures : g.inheritDocs.2.failures m.ref = 1)

/-- If a member had no origin before, it has none in the end exactly if a failure is reported. -/
lemma IsAnswered.inheritedFrom_eq_none_iff (h : g.IsAnswered m m') (hm : m.inheritedFrom = none) :
    m'.inheritedFrom = none ↔ g.inheritDocs.2.failures m.ref = 1 := by
  cases h with
  | met horigin _ hfailures => simp [horigin, hfailures]
  | unmet hsame _ hfailures => simp [hsame, hm, hfailures]

/-- Every member that asks for documentation either gets an origin, or stays as it is and is reported once as
not getting what it asks for; no other member is reported so. Besides, only targets that lead back are
reported. -/
theorem inheritDocs_answers_once (g : ClassGraph) :
    (∀ m, g.HasMember m → ∃ m', g.inheritDocs.1.memberAt? m.ref = some m' ∧
      (m.inherits.isSome → g.IsAnswered m m' ∧
        (m.inheritedFrom = none →
          (m'.inheritedFrom = none ↔ g.inheritDocs.2.failures m.ref = 1))) ∧
      (m.inherits = none → g.inheritDocs.2.failures m.ref = 0)) ∧
      ∀ d ∈ g.inheritDocs.2.diagnostics, ∃ m, g.HasMember m ∧
        (m.inherits.isSome ∧ d.IsFailureOf m.ref ∨ d = m.circularDiagnostic) := by
  refine ⟨fun m hm => ?_, isAccounted_settleAll⟩
  obtain ⟨hrun, -, hall⟩ := run_foldl_resolveMember (sound_start g) rfl fun r (hr : r ∈ g.refs) => hr
  have hanswers := answers_settleAll hm
  obtain ⟨m', hm', -⟩ := (hrun.sound (sound_start g)).exists_memberAt? hm.mem_refs
  have hanswered : m.inherits.isSome → g.IsAnswered m m' := by
    intro hi
    rcases hanswers.settled (hall _ hm.mem_refs) hi with ⟨src, hmet⟩ | hunmet
    · obtain rfl := Option.some.inj (hm'.symm.trans hmet.member)
      exact .met rfl hmet.noted hmet.failures
    · obtain rfl := Option.some.inj (hm'.symm.trans hunmet.member)
      exact .unmet rfl hunmet.unnoted hunmet.failures
  exact ⟨m', hm', fun hi => ⟨hanswered hi, (hanswered hi).inheritedFrom_eq_none_iff⟩, hanswers.unasked⟩

/-- Four methods ask for documentation: one for that of a class that it does not have, one for that of a
class that does not exist, one for its own, and one for that of a method that is documented. -/
def requests : ClassGraph where
  classes := [
    { name := "Door"
      members := ⟨[
        (⟨.method, "open"⟩, { ref := ⟨"Door", .method, "open"⟩, inherits := some {} }),
        (⟨.method, "lock"⟩,
          { ref := ⟨"Door", .method, "lock"⟩, inherits := some { cls := some "Gate" } }),
        (⟨.method, "close"⟩,
          { ref := ⟨"Door", .method, "close"⟩, inherits := some { cls := some "Door" } }),
        (⟨.method, "knock"⟩,
          { ref := ⟨"Door", .method, "knock"⟩, inherits := some { member := some "ring" } }),
        (⟨.method, "ring"⟩, { ref := ⟨"Door", .method, "ring"⟩, doc := "Rings." })], by decide⟩
      located := by decide }]
  distinct := by decide

theorem inheritDocs_answers_once_requests :
    (∀ r ∈ requests.refs, ∃ m, requests.HasMember m ∧ m.ref = r ∧
      ∃ m', requests.inheritDocs.1.memberAt? r = some m' ∧
        (m.inherits.isSome → requests.IsAnswered m m' ∧
          (m.inheritedFrom = none →
            (m'.inheritedFrom = none ↔ requests.inheritDocs.2.failures r = 1)))) ∧
      requests.refs.map (requests.inheritDocs.2.failures ·) = [1, 1, 1, 0, 0] := by
  refine ⟨fun r hr => ?_, by decide +kernel⟩
  obtain ⟨m, hm, rfl⟩ := mem_refs.1 hr
  obtain ⟨m', hm', hanswered, -⟩ := (inheritDocs_answers_once requests).1 m hm
  exact ⟨m, hm, rfl, m', hm', hanswered⟩

end ClassGraph

end DocGraph
