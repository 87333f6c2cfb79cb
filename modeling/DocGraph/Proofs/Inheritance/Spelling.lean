import DocGraph.Graph.Inheritance
import DocGraph.Proofs.Graph.Spelling

/-!
# Inheriting in spelt out graphs

The sources of members are found by the order in which classes are searched and by the members that
targets name. Neither depends on how classes are referred to, so inheriting commutes with spelling out.
-/

namespace DocGraph

/-! ### Sources -/

namespace ClassGraph

lemma candidates_spelledOut (g : ClassGraph) (r : MemberRef) :
    Inheriting.candidates g.spelledOut r = Inheriting.candidates g r := by
  rw [Inheriting.candidates, Inheriting.candidates, searchOrder_spelledOut, List.filterMap_map]
  rfl

/-- A class has the same members in both spellings, so that a target names the same one. -/
lemma target?_spelledOut (g : ClassGraph) (m : Member) (t : DocTarget) :
    g.spelledOut.target? m t = g.target? m t := by
  rw [target?, target?, find?_spelledOut]
  cases g.find? (t.className m) with
  | none => rfl
  | some c => rfl

end ClassGraph

/-! ### Settling -/

namespace Inheriting

variable {visit : MemberRef → Inheriting → Inheriting}

/-- The same state of settling, with the graph spelt out. -/
def spelledOut (s : Inheriting) : Inheriting := { s with graph := s.graph.spelledOut }

lemma firstDocumented_spelledOut (hvisit : ∀ r s, visit r (spelledOut s) = (visit r s).spelledOut)
    (rs : List MemberRef) (s : Inheriting) :
    firstDocumented visit rs s.spelledOut = (firstDocumented visit rs s).map id spelledOut := by
  induction rs generalizing s with
  | nil => rfl
  | cons r rs ih =>
    rw [firstDocumented, firstDocumented]
    change (if r ∈ s.active then _ else _) = _
    by_cases hr : r ∈ s.active
    · rw [if_pos hr, if_pos hr, ih]
    · have hmember : (visit r s).spelledOut.graph.memberAt? r = (visit r s).graph.memberAt? r :=
        (visit r s).graph.memberAt?_spelledOut r
      rw [if_neg hr, if_neg hr, hvisit]
      dsimp only
      rw [hmember]
      cases (visit r s).graph.memberAt? r with
      | none => exact ih _
      | some m =>
        by_cases hm : m.doc.isEmpty
        · simp only [hm, if_true, ih]
        · simp only [hm, Bool.false_eq_true, if_false]
          rfl

lemma explicitSource_spelledOut (m : Member) (t : DocTarget) (s : Inheriting) :
    explicitSource m t s.spelledOut = (explicitSource m t s).map id spelledOut := by
  have htarget : s.spelledOut.graph.target? m t = s.graph.target? m t :=
    s.graph.target?_spelledOut m t
  rw [explicitSource, explicitSource, htarget]
  cases s.graph.target? m t with
  | none => rfl
  | some found =>
    dsimp only
    split <;> rfl

lemma searchedSource_spelledOut (hvisit : ∀ r s, visit r (spelledOut s) = (visit r s).spelledOut)
    (m : Member) (s : Inheriting) :
    searchedSource visit m s.spelledOut = (searchedSource visit m s).map id spelledOut := by
  have hcandidates : candidates s.spelledOut.graph m.ref = candidates s.graph m.ref :=
    s.graph.candidates_spelledOut m.ref
  rw [searchedSource, searchedSource, hcandidates, firstDocumented_spelledOut hvisit]
  obtain ⟨found, s'⟩ := firstDocumented visit (candidates s.graph m.ref) s
  cases found with
  | some r => rfl
  | none =>
    simp only [Prod.map, id]
    split <;> rfl

lemma source_spelledOut (hvisit : ∀ r s, visit r (spelledOut s) = (visit r s).spelledOut)
    (m : Member) (s : Inheriting) :
    source visit m s.spelledOut = (source visit m s).map id spelledOut := by
  rw [source, source]
  cases m.inherits with
  | none => exact searchedSource_spelledOut hvisit m s
  | some t =>
    dsimp only
    split
    · exact explicitSource_spelledOut m t s
    · exact searchedSource_spelledOut hvisit m s

lemma copy_spelledOut (r src : MemberRef) (s : Inheriting) :
    copy r src s.spelledOut = (copy r src s).spelledOut := by
  have hmember : s.spelledOut.graph.memberAt? src = s.graph.memberAt? src :=
    s.graph.memberAt?_spelledOut src
  rw [copy, copy, hmember]
  cases s.graph.memberAt? src with
  | none => rfl
  | some m =>
    have hgraph := s.graph.spelledOut_modifyMember r (f := (·.inherit m)) fun _ => rfl
    simp only [spelledOut, hgraph]

/-- Settling a member takes the same course in both spellings. -/
lemma resolve_spelledOut (depth : Nat) (r : MemberRef) (s : Inheriting) :
    resolve depth r s.spelledOut = (resolve depth r s).spelledOut := by
  induction depth generalizing r s with
  | zero => rfl
  | succ depth ih =>
    have hmember : s.spelledOut.graph.memberAt? r = s.graph.memberAt? r :=
      s.graph.memberAt?_spelledOut r
    rw [resolve, resolve, hmember]
    cases s.graph.memberAt? r with
    | none => rfl
    | some m =>
      change (if r ∈ s.settled then _ else if _ then _ else if r ∈ s.active then _ else _) =
        spelledOut (if r ∈ s.settled then _ else _)
      by_cases hsettled : r ∈ s.settled
      · rw [if_pos hsettled, if_pos hsettled]
      · rw [if_neg hsettled, if_neg hsettled]
        by_cases hneeds : !m.needsDocs
        · rw [if_pos hneeds, if_pos hneeds]
          rfl
        · rw [if_neg hneeds, if_neg hneeds]
          by_cases hactive : r ∈ s.active
          · rw [if_pos hactive, if_pos hactive]
            rfl
          · rw [if_neg hactive, if_neg hactive]
            have hsource := source_spelledOut ih m (s.enter r)
            change source (resolve depth) m (s.spelledOut.enter r) = _ at hsource
            rw [hsource]
            obtain ⟨found, s'⟩ := source (resolve depth) m (s.enter r)
            cases found with
            | none => rfl
            | some src =>
              simp only [Prod.map, id, ih, copy_spelledOut]
              rfl

lemma resolveMember_spelledOut (s : Inheriting) (r : MemberRef) :
    resolveMember s.spelledOut r = (resolveMember s r).spelledOut := by
  have hrefs : s.spelledOut.graph.refs = s.graph.refs := s.graph.refs_spelledOut
  rw [resolveMember, resolveMember, hrefs, resolve_spelledOut]

end Inheriting

/-- Members inherit the same in both spellings, and the same is reported. -/
lemma ClassGraph.inheritDocs_spelledOut (g : ClassGraph) :
    g.spelledOut.inheritDocs = (g.inheritDocs.1.spelledOut, g.inheritDocs.2) := by
  have hrun : ∀ (rs : List MemberRef) (s : Inheriting),
      rs.foldl Inheriting.resolveMember s.spelledOut =
        (rs.foldl Inheriting.resolveMember s).spelledOut := by
    intro rs s
    induction rs generalizing s with
    | nil => rfl
    | cons r rs ih => rw [List.foldl_cons, List.foldl_cons, Inheriting.resolveMember_spelledOut, ih]
  have hstart : ({ graph := g.spelledOut } : Inheriting) = Inheriting.spelledOut { graph := g } := rfl
  rw [inheritDocs, refs_spelledOut, hstart, hrun]
  rfl

end DocGraph
