import DocGraph.Fragment.Document
import DocGraph.Proofs.Fragment.Parts

/-!
# What the entries of a document are read as

The entries of a document are read in turn, each as the fragment that it is on its own. A member that names
no class and is not global then joins the class declared last before it. The first entry that cannot be read
is the fault of the document, whatever stands behind it.

Main statement: a document is read if and only if every entry is, its fragments stand in the order of the
entries, and otherwise it fails as the first entry does that fails.
-/

namespace DocGraph

namespace Fragment

open Value

variable {file : String} {i : Nat} {current : Option String} {e v doc : Value} {es : List Value}
  {f : Fragment} {fs gs before : List Fragment} {fault : Fault}

/-! ### Classes of members -/

/-- The class that is declared last in some fragments. -/
def lastClass (fs : List Fragment) : Option String :=
  ((fs.filter (·.subject = .cls)).getLast?).map (·.name)

/-- An entry is marked as global. -/
def IsGlobal (e : Value) : Prop := ∃ flag, e.field "global" = .ok flag ∧ flag.isTruthy

/-- What the fragment of an entry becomes after some declarations, of which the last one is that of a
class. -/
inductive Joins (current : Option String) (e : Value) (f : Fragment) : Fragment → Prop
  /-- A member without an owner belongs to the class. -/
  | member (hsubject : f.subject ≠ .cls) (howner : f.owner = none) (hglobal : ¬IsGlobal e) :
    Joins current e f { f with owner := current }
  /-- Anything else is as it is written. -/
  | asWritten (h : f.subject = .cls ∨ f.owner ≠ none ∨ IsGlobal e) : Joins current e f f

lemma nextClass_lastClass (before : List Fragment) (f : Fragment) :
    f.nextClass (lastClass before) = lastClass (before ++ [f]) := by
  by_cases h : f.subject = .cls <;> simp [nextClass, lastClass, h]

lemma joins_within {ps : List (Scalar × Value)} (h : e.opened = .map ps) :
    Joins current e f (f.within current (fieldOf ps "global").isTruthy) := by
  have hglobal : IsGlobal e ↔ (fieldOf ps "global").isTruthy := by simp [IsGlobal, field_eq_ok_iff, h]
  rw [within]
  split
  · next hf =>
    obtain ⟨hsubject, howner, hnot⟩ := hf
    exact .member hsubject (Option.isNone_iff_eq_none.1 howner) (by simpa [hglobal] using hnot)
  · next hf => exact .asWritten (by simpa [hglobal, or_iff_not_imp_left] using hf)

/-! ### One entry -/

/-- What is wrong with the entry at a place of a file: it is no mapping, or the mapping is no fragment. -/
inductive IsFaultOf (file : String) (i : Nat) (e : Value) : Fault → Prop
  | notMapping (h : ∀ ps, e.opened ≠ .map ps) : IsFaultOf file i e (.entryNotMapping e.typeWord)
  | notFragment {ps : List (Scalar × Value)} {fault : Fault} (hmap : e.opened = .map ps)
    (h : ofEntry e file i = .error fault) : IsFaultOf file i e fault

lemma ofEntries_cons_of_map {ps : List (Scalar × Value)} (h : e.opened = .map ps) :
    ofEntries file i current (e :: es) = do
      let f ← ofEntry e file i
      let fs ← ofEntries file (i + 1) (f.nextClass current) es
      return f.within current (fieldOf ps "global").isTruthy :: fs := by
  rw [ofEntry_of_opened h]
  simp only [ofEntries, h]

lemma ofEntries_cons_of_not_map (h : ∀ ps, e.opened ≠ .map ps) :
    ofEntries file i current (e :: es) = .error (.entryNotMapping e.typeWord) := by
  rw [ofEntries]
  split
  · next ps hps => exact absurd hps (h ps)
  · rfl

lemma not_ofEntry_eq_ok_of_not_map {index : Int} (h : ∀ ps, e.opened ≠ .map ps) :
    ofEntry e file index ≠ .ok f := by
  intro hf
  simp only [ofEntry, bind_eq_ok, pairs?_eq_ok_iff] at hf
  obtain ⟨ps, hps, -⟩ := hf
  exact h ps hps

/-- An entry that is read comes first, inside the class that is the current one. -/
lemma exists_of_ofEntries_cons_eq_ok (h : ofEntries file i current (e :: es) = .ok fs) :
    ∃ f g gs, ofEntry e file i = .ok f ∧ Joins current e f g ∧
      ofEntries file (i + 1) (f.nextClass current) es = .ok gs ∧ g :: gs = fs := by
  by_cases hmap : ∃ ps, e.opened = .map ps
  · obtain ⟨ps, hps⟩ := hmap
    simp only [ofEntries_cons_of_map hps, bind_eq_ok, pure_eq_ok] at h
    obtain ⟨f, hf, gs, hgs, rfl⟩ := h
    exact ⟨f, _, gs, hf, joins_within hps, hgs, rfl⟩
  · rw [ofEntries_cons_of_not_map (not_exists.1 hmap)] at h
    cases h

/-- The fault of an entry counts before those of all that follow. -/
lemma ofEntries_cons_eq_error_iff :
    ofEntries file i current (e :: es) = .error fault ↔
      IsFaultOf file i e fault ∨ ∃ f, ofEntry e file i = .ok f ∧
        ofEntries file (i + 1) (f.nextClass current) es = .error fault := by
  by_cases hmap : ∃ ps, e.opened = .map ps
  · obtain ⟨ps, hps⟩ := hmap
    simp only [ofEntries_cons_of_map hps, bind_eq_error, pure_ne_error, and_false, exists_false, or_false]
    refine or_congr_left ⟨.notFragment hps, ?_⟩
    rintro (h | ⟨-, h⟩)
    · exact absurd hps (h ps)
    · exact h
  · rw [ofEntries_cons_of_not_map (not_exists.1 hmap), Except.error.injEq]
    constructor
    · rintro rfl
      exact .inl (.notMapping (not_exists.1 hmap))
    · rintro ((_ | ⟨hps, -⟩) | ⟨f, hf, -⟩)
      · rfl
      · exact absurd ⟨_, hps⟩ hmap
      · exact absurd hf (not_ofEntry_eq_ok_of_not_map (not_exists.1 hmap))

/-! ### All entries -/

/-- Fragments are those of the entries of a document: each is what the entry at its place is read as on its
own, in the class declared last before it. -/
structure AreReadFrom (file : String) (es : List Value) (fs : List Fragment) : Prop where
  length_eq : fs.length = es.length
  /-- What the entries are on their own says which of them declare classes. -/
  exists_joins : ∃ gs : List Fragment, gs.length = es.length ∧ ∀ (i : Nat) (e : Value), es[i]? = some e →
    ∃ f g, ofEntry e file i = .ok f ∧ gs[i]? = some f ∧ Joins (lastClass (gs.take i)) e f g ∧
      fs[i]? = some g

/-- Entries behind some fragments are read as they are at their places. The induction is on the entries; the
class that is current is the last one of all fragments before. -/
lemma exists_joins_of_ofEntries_eq_ok (h : ofEntries file i (lastClass before) es = .ok fs) :
    fs.length = es.length ∧ ∃ gs : List Fragment, gs.length = es.length ∧ ∀ j e, es[j]? = some e →
      ∃ f g, ofEntry e file (i + j : Nat) = .ok f ∧ gs[j]? = some f ∧
        Joins (lastClass (before ++ gs.take j)) e f g ∧ fs[j]? = some g := by
  induction es generalizing i before fs with
  | nil =>
    obtain rfl : [] = fs := by simpa [ofEntries] using h
    exact ⟨rfl, [], rfl, by simp⟩
  | cons e es ih =>
    obtain ⟨f, g, gs', hf, hjoins, hrest, rfl⟩ := exists_of_ofEntries_cons_eq_ok h
    rw [nextClass_lastClass] at hrest
    obtain ⟨hlength, gs, hgs, hread⟩ := ih hrest
    refine ⟨congrArg (· + 1) hlength, f :: gs, congrArg (· + 1) hgs, ?_⟩
    rintro (_ | j) e' he'
    · obtain rfl : e = e' := by simpa using he'
      exact ⟨f, g, hf, rfl, by simpa using hjoins, rfl⟩
    · obtain ⟨f', g', hf', hgj, hjoins', hfj⟩ := hread j e' he'
      refine ⟨f', g', ?_, hgj, ?_, hfj⟩
      · rw [← hf', Nat.add_right_comm, Nat.add_assoc]
      · simpa using hjoins'

/-- The first entry with a fault has the fault of the whole. -/
lemma ofEntries_eq_error_iff :
    ofEntries file i current es = .error fault ↔ ∃ j e, es[j]? = some e ∧
      IsFaultOf file (i + j) e fault ∧
      ∀ k < j, ∀ e', es[k]? = some e' → ∃ f, ofEntry e' file (i + k : Nat) = .ok f := by
  induction es generalizing i current with
  | nil => simp [ofEntries]
  | cons e es ih =>
    rw [ofEntries_cons_eq_error_iff]
    constructor
    · rintro (h | ⟨f, hf, h⟩)
      · exact ⟨0, e, rfl, h, by simp⟩
      · obtain ⟨j, e', he', hfault, hbefore⟩ := ih.1 h
        refine ⟨j + 1, e', he', by rwa [← Nat.add_assoc, Nat.add_right_comm], ?_⟩
        rintro (_ | k) hk e'' he''
        · obtain rfl : e = e'' := by simpa using he''
          exact ⟨f, hf⟩
        · obtain ⟨f', hf'⟩ := hbefore k (Nat.lt_of_succ_lt_succ hk) e'' he''
          exact ⟨f', by rwa [← Nat.add_assoc, Nat.add_right_comm]⟩
    · rintro ⟨_ | j, e', he', hfault, hbefore⟩
      · obtain rfl : e = e' := by simpa using he'
        exact .inl hfault
      · obtain ⟨f, hf⟩ := hbefore 0 (Nat.succ_pos j) e rfl
        refine .inr ⟨f, hf, ih.2 ⟨j, e', he', by rwa [Nat.add_right_comm, Nat.add_assoc], ?_⟩⟩
        intro k hk e'' he''
        obtain ⟨f', hf'⟩ := hbefore (k + 1) (Nat.succ_lt_succ hk) e'' he''
        exact ⟨f', by rwa [Nat.add_right_comm, Nat.add_assoc]⟩

lemma not_ofEntry_eq_ok_of_isFaultOf (h : IsFaultOf file i e fault) : ofEntry e file i ≠ .ok f := by
  cases h with
  | notMapping h => exact not_ofEntry_eq_ok_of_not_map h
  | notFragment _ h => simp [h]

/-! ### Documents -/

lemma entries_of_field (hdoc : doc.field "fragments" = .ok v) (hlist : v.opened = .list es) :
    entries doc = .ok es := by
  have hnull : v ≠ .null := by
    rintro rfl
    simp at hlist
  obtain ⟨ps, hps, rfl⟩ := field_eq_ok_iff.1 hdoc
  simp only [entries, orEmpty_of_field_eq_ok hdoc hnull, hps, hlist]
  rfl

/-- A document with a list of entries is read if and only if each of them is a mapping that is read as a
fragment. Then each entry stands at its place, as it is read on its own but for the class that it joins.
Otherwise there are no fragments, and the fault is that of the first entry that has one. -/
theorem ofDocument_reads_in_place (hdoc : doc.field "fragments" = .ok v) (hlist : v.opened = .list es) :
    ((∃ fs, ofDocument doc file = .ok fs) ↔
      ∀ (i : Nat) (e : Value), es[i]? = some e →
        (∃ ps, e.opened = .map ps) ∧ ∃ f, ofEntry e file i = .ok f) ∧
    (∀ fs, ofDocument doc file = .ok fs → AreReadFrom file es fs) ∧
    ∀ fault, ofDocument doc file = .error fault ↔ ∃ i e, es[i]? = some e ∧ IsFaultOf file i e fault ∧
      ∀ j < i, ∀ e', es[j]? = some e' → ∃ f, ofEntry e' file j = .ok f := by
  have hread : ofDocument doc file = ofEntries file 0 (lastClass []) es := by
    rw [ofDocument, entries_of_field hdoc hlist]
    rfl
  rw [hread]
  have hok : ∀ fs, ofEntries file 0 (lastClass []) es = .ok fs → AreReadFrom file es fs := by
    intro fs hfs
    obtain ⟨hlength, hjoins⟩ := exists_joins_of_ofEntries_eq_ok hfs
    exact ⟨hlength, by simpa using hjoins⟩
  have herror : ∀ fault, ofEntries file 0 (lastClass []) es = .error fault ↔ _ :=
    fun _ => ofEntries_eq_error_iff
  simp only [Nat.zero_add] at herror
  refine ⟨⟨?_, ?_⟩, hok, herror⟩
  · rintro ⟨fs, hfs⟩ i e he
    obtain ⟨gs, -, hjoins⟩ := (hok fs hfs).exists_joins
    obtain ⟨f, -, hf, -⟩ := hjoins i e he
    refine ⟨?_, f, hf⟩
    by_contra hmap
    exact not_ofEntry_eq_ok_of_not_map (not_exists.1 hmap) hf
  · intro hall
    cases hes : ofEntries file 0 (lastClass []) es with
    | ok fs => exact ⟨fs, rfl⟩
    | error fault =>
      obtain ⟨i, e, he, hfault, -⟩ := (herror fault).1 hes
      obtain ⟨-, f, hf⟩ := hall i e he
      exact absurd hf (not_ofEntry_eq_ok_of_isFaultOf hfault)

/-- A document with nothing but some entries. -/
def documentOf (es : List Value) : Value := .record [("fragments", .list es)]

lemma field_documentOf (es : List Value) : (documentOf es).field "fragments" = .ok (.list es) :=
  field_eq_ok_iff.2 ⟨_, rfl, fieldOf_cons_self⟩

/-- An entry with nothing but a tag, a name and some flags that are set. -/
def flaggedEntry (tag name : String) (flags : List String) : Value :=
  .record (("tagname", .text tag) :: ("name", .text name) :: flags.map (·, .bool true))

/-- Two classes with members behind each of them, of which one is global. -/
def mixedEntries : List Value := [
  flaggedEntry "method" "start" [],
  flaggedEntry "class" "Panel" [],
  flaggedEntry "method" "show" [],
  flaggedEntry "method" "log" ["global"],
  flaggedEntry "class" "Grid" [],
  flaggedEntry "event" "shown" []]

example : (ofDocument (documentOf mixedEntries) "a.yml").map (·.map (·.owner)) =
    .ok [none, none, some "Panel", none, none, some "Grid"] := rfl

/-- A class, something unknown, and a text in the place of an entry. -/
def faultyEntries : List Value :=
  [flaggedEntry "class" "Panel" [], flaggedEntry "widget" "Clock" [], .text "Grid"]

/-- Of two faults the first one counts; without any there are fragments. -/
theorem ofDocument_reads_in_place_faulty :
    ofDocument (documentOf faultyEntries) "a.yml" = .error (.unknownTag 1 "widget") ∧
      ∀ fs, ofDocument (documentOf mixedEntries) "a.yml" = .ok fs →
        AreReadFrom "a.yml" mixedEntries fs := by
  constructor
  · refine ((ofDocument_reads_in_place (field_documentOf _) rfl).2.2 _).2
      ⟨1, _, rfl, .notFragment rfl rfl, ?_⟩
    rintro (_ | j) hj e' he'
    · obtain rfl : flaggedEntry "class" "Panel" [] = e' := by simpa [faultyEntries] using he'
      exact ⟨_, rfl⟩
    · omega
  · exact (ofDocument_reads_in_place (field_documentOf _) rfl).2.1

end Fragment

end DocGraph
