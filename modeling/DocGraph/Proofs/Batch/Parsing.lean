import DocGraph.Proofs.Batch.Course
import Mathlib.Data.List.Forall2

/-!
# Parsed batches

Whether files are parsed one after the other or side by side makes no difference to what a batch is
parsed to. Side by side, what the slots hold depends on which files have finished and not on their
order: a file that has finished has its own result in its own slot. So the results are those of the
files in their order, or there is no result at all but the failure of one file.

A listener has no part in this, whatever it does when it is told of a stage.
-/

namespace DocGraph

/-! ### Listeners -/

/-- A journal after listeners were told of its stages, each of which may have failed or not. -/
inductive Journal.Heard : Journal → Journal → Prop
  | nil : Heard [] []
  | heard {e : Event} {j k : Journal} (h : Heard j k) : Heard (e :: j) (e :: k)
  | unheard {name subject : String} {j k : Journal} (h : Heard j k) :
    Heard (.stage name subject :: j) (.stage name subject :: .unheard name subject :: k)

namespace Journal

variable {j k : Journal}

/-- What listeners do changes nothing about the problems reported. -/
lemma Heard.diagnostics_eq (h : Heard j k) : k.diagnostics = j.diagnostics := by
  induction h with
  | nil => rfl
  | @heard e j k _ ih =>
    rw [← List.singleton_append, ← List.singleton_append (l := j), diagnostics_append,
      diagnostics_append, ih]
  | unheard _ ih => exact ih

lemma heard_heardBy (listener : Listener) (j : Journal) : Heard j (heardBy listener j) := by
  induction j with
  | nil => exact .nil
  | cons e j ih =>
    rw [heardBy, List.flatMap_cons, ← heardBy]
    cases e with
    | stage name subject =>
      simp only [tell, stage?]
      cases listener name subject with
      | ok _ => exact .heard ih
      | error _ => exact .unheard ih
    | _ => exact .heard ih

end Journal

namespace Run

variable {α β : Type} {x : Run α} {f : α → Run β} {r : Except Failure α × Journal}

/-- How a run may end if listeners are told of its stages. -/
def MayEnd (x : Run α) (r : Except Failure α × Journal) : Prop :=
  r.1 = x.finish.1 ∧ x.finish.2.Heard r.2

lemma mayEnd_finishHeardBy (listener : Journal.Listener) (x : Run α) :
    x.MayEnd (x.finishHeardBy listener) :=
  ⟨rfl, Journal.heard_heardBy listener x.finish.2⟩

/-! ### Quiet runs -/

/-- A run reports no problem, however it ends. -/
def IsQuiet (x : Run α) : Prop := ∀ j, (x.finishAfter j).2.diagnostics = j.diagnostics

lemma IsQuiet.bind (hx : x.IsQuiet) (hf : ∀ a, (f a).IsQuiet) : (x >>= f).IsQuiet := by
  intro j
  have hj := hx j
  rw [finishAfter_bind]
  rcases hend : x.finishAfter j with ⟨e | a, j'⟩
  · rwa [hend] at hj
  · rw [hend] at hj
    exact (hf a j').trans hj

lemma isQuiet_pure (a : α) : (pure a : Run α).IsQuiet := fun _ => rfl

lemma isQuiet_note {events : Journal} (h : events.diagnostics = []) : (note events).IsQuiet := by
  intro j
  change (j ++ events).diagnostics = j.diagnostics
  rw [Journal.diagnostics_append, h, List.append_nil]

lemma isQuiet_ofExcept (r : Except Failure α) : (ofExcept r).IsQuiet := by
  intro j
  cases r <;> rfl

lemma isQuiet_ofFault (r : Except Fault α) : (ofFault r).IsQuiet := by
  intro j
  cases r <;> rfl

/-! ### Failing runs -/

/-- A run that goes on after a journal ends with a failure and with another journal. -/
def Fails (x : Run α) (j : Journal) (e : Failure) (j' : Journal) : Prop :=
  x.finishAfter j = (.error e, j')

@[simp] lemma fails_bind {j j' : Journal} {e : Failure} :
    (x >>= f).Fails j e j' ↔
      x.Fails j e j' ∨ ∃ a j₁, x.Yields j a j₁ ∧ (f a).Fails j₁ e j' := by
  rw [Fails, finishAfter_bind]
  simp only [Fails, Yields]
  rcases x.finishAfter j with ⟨e' | a, j₁⟩
  · simp
  · simp [and_assoc]

@[simp] lemma fails_ofExcept {r : Except Failure α} {j j' : Journal} {e : Failure} :
    (ofExcept r).Fails j e j' ↔ r = .error e ∧ j = j' := by
  cases r with
  | ok a =>
    change (Except.ok a, j) = (.error e, j') ↔ _
    simp
  | error e' =>
    change (Except.error e', j) = (.error e, j') ↔ _
    simp

end Run

namespace Parser

variable {parser : Parser} {files before after : List String} {file : String} {e : Fault}
  {results : List ParsedFile}

/-! ### Files -/

lemma exists_of_parseFile {p : ParsedFile} (h : parser.parseFile file = .ok p) :
    ∃ fragments, parser file = .ok fragments := by
  rw [parseFile] at h
  cases hp : parser file with
  | ok fragments => exact ⟨fragments, rfl⟩
  | error e => simp [hp] at h

lemma parseFile_eq_error {failure : Failure} (h : parser.parseFile file = .error failure) :
    ∃ e, parser file = .error e ∧ failure = .unparsed file e := by
  rw [parseFile] at h
  cases hp : parser file with
  | ok fragments => simp [hp] at h
  | error e =>
    simp only [hp, Except.error.injEq] at h
    exact ⟨e, rfl, h.symm⟩

/-- Some files are parsed to some results, in their order. -/
def ParsesTo (parser : Parser) (files : List String) (results : List ParsedFile) : Prop :=
  List.Forall₂ (fun file p => parser.parseFile file = .ok p) files results

lemma ParsesTo.exists_parseFile (h : parser.ParsesTo files results) (hfile : file ∈ files) :
    ∃ p, parser.parseFile file = .ok p := by
  induction h with
  | nil => simp at hfile
  | cons hp _ ih =>
    rcases List.mem_cons.1 hfile with rfl | hfile
    · exact ⟨_, hp⟩
    · exact ih hfile

/-- Either every file can be parsed, or there is a first one that cannot. -/
lemma parses_or_fails (parser : Parser) (files : List String) :
    (∃ results, parser.ParsesTo files results) ∨
      ∃ before file after e, files = before ++ file :: after ∧
        (∃ results, parser.ParsesTo before results) ∧ parser file = .error e := by
  induction files with
  | nil => exact .inl ⟨[], .nil⟩
  | cons file files ih =>
    cases hp : parser.parseFile file with
    | error failure =>
      obtain ⟨e, he, -⟩ := parseFile_eq_error hp
      exact .inr ⟨[], file, files, e, rfl, ⟨[], .nil⟩, he⟩
    | ok p =>
      rcases ih with ⟨results, h⟩ | ⟨before, failing, after, e, rfl, ⟨results, h⟩, he⟩
      · exact .inl ⟨p :: results, .cons hp h⟩
      · exact .inr ⟨file :: before, failing, after, e, rfl, ⟨p :: results, .cons hp h⟩, he⟩

/-! ### One after the other -/

lemma yields_inTurn (h : parser.ParsesTo files results) (j : Journal) :
    (parser.inTurn files).Yields j results (j ++ files.map announcement) := by
  induction h generalizing j with
  | nil => simp [inTurn]
  | cons hp _ ih =>
    simp only [inTurn, Run.yields_bind, Run.yields_note, Run.yields_ofExcept, Run.yields_pure]
    exact ⟨(), _, rfl, _, _, ⟨hp, rfl⟩, _, _, ih _, rfl, by simp⟩

/-- The first file that cannot be parsed ends the run. -/
lemma fails_inTurn (h : parser.ParsesTo before results) (he : parser file = .error e)
    (after : List String) (j : Journal) :
    (parser.inTurn (before ++ file :: after)).Fails j (.unparsed file e)
      (j ++ (before ++ [file]).map announcement) := by
  induction h generalizing j with
  | nil =>
    simp only [List.nil_append, inTurn, Run.fails_bind, Run.yields_note, Run.fails_ofExcept]
    exact .inr ⟨(), _, rfl, .inl ⟨by simp [parseFile, he], rfl⟩⟩
  | cons hp _ ih =>
    simp only [List.cons_append, inTurn, Run.fails_bind, Run.yields_note, Run.yields_ofExcept]
    refine .inr ⟨(), _, rfl, .inr ⟨_, _, ⟨hp, rfl⟩, .inl ?_⟩⟩
    simpa using ih (j ++ [announcement _])

/-! ### Side by side -/

/-- The slots in which the results are of the files at some places. -/
def slotsOf (parser : Parser) (files : List String) (places : List Nat) : Slots :=
  files.mapIdx fun i file => if i ∈ places then (parser.parseFile file).toOption else none

/-- A file that finishes adds its place to those whose results are there. -/
lemma finishFile_slotsOf {i : Nat} {p : ParsedFile} (hfile : files[i]? = some file)
    (hp : parser.parseFile file = .ok p) (places : List Nat) :
    parser.finishFile files (parser.slotsOf files places) i =
      .ok (parser.slotsOf files (places ++ [i])) := by
  have hset : (parser.slotsOf files places).set i (some p) = parser.slotsOf files (places ++ [i]) := by
    refine List.ext_getElem? fun k => ?_
    rw [List.getElem?_set, slotsOf, slotsOf, List.getElem?_mapIdx, List.getElem?_mapIdx,
      List.length_mapIdx]
    by_cases hk : i = k
    · subst hk
      have hi : i < files.length := (List.getElem?_eq_some_iff.1 hfile).1
      rw [hfile, if_pos rfl, if_pos hi, Option.map_some, if_pos (by simp), hp]
      rfl
    · have hk' : k ≠ i := fun h => hk h.symm
      simp [hk, hk']
  simp [finishFile, hfile, hp, hset, bind, Except.bind, pure, Except.pure]

/-- What the slots hold after files have finished depends on their places, and not on their order. -/
lemma foldlM_finishFile {order : List Nat}
    (h : ∀ i ∈ order, ∃ file p, files[i]? = some file ∧ parser.parseFile file = .ok p)
    (places : List Nat) :
    order.foldlM (parser.finishFile files) (parser.slotsOf files places) =
      .ok (parser.slotsOf files (places ++ order)) := by
  -- the files at `places` have finished before those in `order`
  induction order generalizing places with
  | nil => simp [pure, Except.pure]
  | cons i order ih =>
    obtain ⟨file, p, hfile, hp⟩ := h i (List.mem_cons_self ..)
    rw [List.foldlM_cons, finishFile_slotsOf hfile hp]
    have hrest := ih (fun k hk => h k (List.mem_cons_of_mem _ hk)) (places ++ [i])
    rwa [List.append_assoc] at hrest

/-- The first file to finish that cannot be parsed ends the parsing, whatever the slots hold. -/
lemma exists_foldlM_finishFile_error {order : List Nat} (h : ∀ i ∈ order, i < files.length)
    (hfails : ∃ i ∈ order, ∃ file e, files[i]? = some file ∧ parser file = .error e) (slots : Slots) :
    ∃ file e, file ∈ files ∧ parser file = .error e ∧
      order.foldlM (parser.finishFile files) slots = .error (.unparsed file e) := by
  induction order generalizing slots with
  | nil => simp at hfails
  | cons i order ih =>
    have hi : i < files.length := h i (List.mem_cons_self ..)
    have hfile : files[i]? = some files[i] := List.getElem?_eq_getElem hi
    cases hp : parser files[i] with
    | error e =>
      refine ⟨files[i], e, List.getElem_mem hi, hp, ?_⟩
      simp [finishFile, hfile, parseFile, hp, bind, Except.bind]
    | ok fragments =>
      -- this file can be parsed, so one that finishes later cannot
      have hlater : ∃ k ∈ order, ∃ file e, files[k]? = some file ∧ parser file = .error e := by
        obtain ⟨k, hk, file, e, hfile', he⟩ := hfails
        rcases List.mem_cons.1 hk with rfl | hk
        · rw [hfile, Option.some_inj] at hfile'
          simp [← hfile', hp] at he
        · exact ⟨k, hk, file, e, hfile', he⟩
      obtain ⟨file, e, hmem, he, hrest⟩ := ih (fun k hk => h k (List.mem_cons_of_mem _ hk)) hlater
        (slots.set i (some ⟨files[i], fragments⟩))
      refine ⟨file, e, hmem, he, ?_⟩
      rw [List.foldlM_cons, ← hrest]
      simp [finishFile, hfile, parseFile, hp, bind, Except.bind, pure, Except.pure]

/-- Groups are finished like the files in them. -/
lemma foldlM_groups (schedule : Schedule) (slots : Slots) :
    schedule.foldlM (fun slots group => group.foldlM (parser.finishFile files) slots) slots =
      schedule.flatten.foldlM (parser.finishFile files) slots := by
  induction schedule generalizing slots with
  | nil => rfl
  | cons group schedule ih =>
    rw [List.foldlM_cons, List.flatten_cons, List.foldlM_append]
    exact congrArg _ (funext ih)

section Complete

variable {schedule : Schedule}

lemma Schedule.IsComplete.mem_iff {n : Nat} (h : schedule.IsComplete n) {i : Nat} :
    i ∈ schedule.flatten ↔ i < n := by
  rw [h.1.mem_iff, List.mem_range]

lemma replicate_eq_slotsOf (parser : Parser) (files : List String) :
    List.replicate files.length none = parser.slotsOf files [] := by
  refine List.ext_getElem? fun k => ?_
  rw [slotsOf, List.getElem?_mapIdx, List.getElem?_replicate]
  by_cases hk : k < files.length <;> simp [hk]

/-- Slots in which all results are hold the results of all files. -/
lemma filterMap_slotsOf (h : parser.ParsesTo files results) {places : List Nat}
    (hplaces : ∀ i < files.length, i ∈ places) :
    (parser.slotsOf files places).filterMap id = results := by
  have hall : parser.slotsOf files places = files.map fun file => (parser.parseFile file).toOption := by
    refine List.ext_getElem? fun k => ?_
    rw [slotsOf, List.getElem?_mapIdx, List.getElem?_map]
    by_cases hk : k < files.length
    · simp [hplaces k hk]
    · simp [hk]
  rw [hall, List.filterMap_map]
  clear hplaces hall
  -- the places play no part any more, and the results are compared file by file
  induction h with
  | nil => rfl
  | cons hp _ ih => simpa [hp, Except.toOption, Function.comp_def] using ih

lemma gather_of_parsesTo (h : parser.ParsesTo files results)
    (hs : schedule.IsComplete files.length) : parser.gather files schedule = .ok results := by
  have hparsed : ∀ i ∈ schedule.flatten,
      ∃ file p, files[i]? = some file ∧ parser.parseFile file = .ok p := by
    intro i hi
    have hlt := hs.mem_iff.1 hi
    obtain ⟨p, hp⟩ := h.exists_parseFile (List.getElem_mem hlt)
    exact ⟨files[i], p, List.getElem?_eq_getElem hlt, hp⟩
  have hslots := foldlM_finishFile hparsed []
  rw [gather, foldlM_groups, replicate_eq_slotsOf, hslots]
  change Except.ok _ = Except.ok _
  rw [filterMap_slotsOf h fun i hi => by simpa using hs.mem_iff.2 hi]

lemma exists_gather_error (hs : schedule.IsComplete files.length) (hfile : file ∈ files)
    (he : parser file = .error e) :
    ∃ file e, file ∈ files ∧ parser file = .error e ∧
      parser.gather files schedule = .error (.unparsed file e) := by
  obtain ⟨i, hi, hget⟩ := List.getElem_of_mem hfile
  have hfails : ∃ i ∈ schedule.flatten, ∃ file e, files[i]? = some file ∧ parser file = .error e :=
    ⟨i, hs.mem_iff.2 hi, file, e, hget ▸ List.getElem?_eq_getElem hi, he⟩
  obtain ⟨file, e, hmem, he, hslots⟩ := exists_foldlM_finishFile_error (fun i hi => hs.mem_iff.1 hi)
    hfails (List.replicate files.length none)
  refine ⟨file, e, hmem, he, ?_⟩
  rw [gather, foldlM_groups, hslots]
  rfl

lemma yields_sideBySide (h : parser.ParsesTo files results) (hs : schedule.IsComplete files.length)
    (n : Nat) (j : Journal) :
    (parser.sideBySide files n schedule).Yields j results
      (j ++ .pooled files.length n :: files.map announcement) := by
  simp only [sideBySide, Run.yields_bind, Run.yields_note, Run.yields_ofExcept]
  exact ⟨(), _, rfl, gather_of_parsesTo h hs, rfl⟩

lemma exists_fails_sideBySide (hs : schedule.IsComplete files.length) (hfile : file ∈ files)
    (he : parser file = .error e) (n : Nat) (j : Journal) :
    ∃ file e, file ∈ files ∧ parser file = .error e ∧
      (parser.sideBySide files n schedule).Fails j (.unparsed file e)
        (j ++ .pooled files.length n :: files.map announcement) := by
  obtain ⟨file, e, hmem, he, hgather⟩ := exists_gather_error hs hfile he
  refine ⟨file, e, hmem, he, ?_⟩
  simp only [sideBySide, Run.fails_bind, Run.yields_note, Run.fails_ofExcept]
  exact .inr ⟨(), _, rfl, hgather, rfl⟩

end Complete

/-! ### Quiet parsing -/

lemma isQuiet_inTurn (parser : Parser) (files : List String) : (parser.inTurn files).IsQuiet := by
  induction files with
  | nil => exact Run.isQuiet_pure []
  | cons file files ih =>
    refine (Run.isQuiet_note rfl).bind fun _ => ?_
    refine (Run.isQuiet_ofExcept _).bind fun p => ?_
    exact ih.bind fun ps => Run.isQuiet_pure (p :: ps)

lemma isQuiet_sideBySide (parser : Parser) (files : List String) (n : Nat) (schedule : Schedule) :
    (parser.sideBySide files n schedule).IsQuiet := by
  refine (Run.isQuiet_note ?_).bind fun _ => Run.isQuiet_ofExcept _
  simp [Journal.diagnostics, Journal.diagnostic?, announcement]

lemma isQuiet_parseAll (parser : Parser) (files : List String) (workers : Except Fault Workers)
    (schedule : Schedule) : (parser.parseAll files workers schedule).IsQuiet := by
  rw [parseAll]
  split
  · exact Run.isQuiet_pure []
  · refine (Run.isQuiet_ofFault workers).bind fun w => ?_
    cases w with
    | one => exact isQuiet_inTurn parser files
    | several n => exact isQuiet_sideBySide parser files n schedule

end Parser

/-! ### Batches -/

namespace Batch

open DocGraph.Parser

variable {b : Batch} {parser : Parser} {schedule : Schedule} {w : Workers}

lemma isQuiet_parse (b : Batch) (parser : Parser) (schedule : Schedule) :
    (b.parse parser schedule).IsQuiet :=
  isQuiet_parseAll parser b.files _ schedule

/-- A batch all of whose files can be parsed is parsed to their results in their order. -/
lemma exists_yields_parse {results : List ParsedFile} (hw : b.settings.workers b.asked b.available = .ok w)
    (hs : schedule.IsComplete b.files.length) (h : parser.ParsesTo b.files results) :
    ∃ j, (b.parse parser schedule).Yields [] results j := by
  rw [parse, parseAll]
  split
  · next hempty =>
    rw [List.isEmpty_iff.1 hempty, ParsesTo, List.forall₂_nil_left_iff] at h
    exact ⟨[], by rw [Run.yields_pure]; exact ⟨h.symm, rfl⟩⟩
  · simp only [hw, Run.yields_bind, Run.yields_ofFault, Except.ok.injEq]
    cases w with
    | one => exact ⟨_, .one, [], ⟨rfl, rfl⟩, yields_inTurn h []⟩
    | several n => exact ⟨_, .several n, [], ⟨rfl, rfl⟩, yields_sideBySide h hs n []⟩

/-- If some file cannot be parsed, the failure of such a file ends the parsing, and with one worker it is
that of the first one. -/
lemma exists_fails_parse {file : String} {e : Fault}
    (hw : b.settings.workers b.asked b.available = .ok w) (hs : schedule.IsComplete b.files.length)
    (hfile : file ∈ b.files) (he : parser file = .error e) :
    ∃ failing e' j, failing ∈ b.files ∧ parser failing = .error e' ∧
      (w = .one → ∃ before after results, b.files = before ++ failing :: after ∧
        parser.ParsesTo before results) ∧
      (b.parse parser schedule).Fails [] (.unparsed failing e') j := by
  have hne : ¬b.files.isEmpty := by
    rw [List.isEmpty_iff]
    exact List.ne_nil_of_mem hfile
  rw [parse, parseAll, if_neg hne]
  simp only [hw, Run.fails_bind, Run.yields_ofFault, Except.ok.injEq]
  cases w with
  | one =>
    rcases parses_or_fails parser b.files with
      ⟨results, h⟩ | ⟨before, failing, after, e', hfiles, ⟨results, h⟩, he'⟩
    · obtain ⟨p, hp⟩ := h.exists_parseFile hfile
      simp [parseFile, he] at hp
    · have hmem : failing ∈ b.files := by simp [hfiles]
      have hend := fails_inTurn h he' after []
      rw [← hfiles] at hend
      exact ⟨failing, e', _, hmem, he', fun _ => ⟨before, after, results, hfiles, h⟩,
        .inr ⟨.one, [], ⟨rfl, rfl⟩, hend⟩⟩
  | several n =>
    obtain ⟨failing, e', hmem, he', hend⟩ := exists_fails_sideBySide hs hfile he n []
    exact ⟨failing, e', _, hmem, he', by simp, .inr ⟨.several n, [], ⟨rfl, rfl⟩, hend⟩⟩

/-- Parsing is all or nothing, in whatever order the files finish and whatever listeners do: either there
are the results of all files in their order, or there is only the failure of a file that cannot be parsed,
which with one worker is the first such file. Then the batch is not resolved either, and no problem has
been reported. -/
theorem parse_all_or_nothing (hw : b.settings.workers b.asked b.available = .ok w)
    (hs : schedule.IsComplete b.files.length) :
    ((∀ file ∈ b.files, ∃ fragments, parser file = .ok fragments) →
      ∃ results, List.Forall₂ (fun file p => parser.parseFile file = .ok p) b.files results ∧
        ∀ r, (b.parse parser schedule).MayEnd r → r.1 = .ok results) ∧
    ((∃ file ∈ b.files, ∃ e, parser file = .error e) →
      ∃ file ∈ b.files, ∃ e, parser file = .error e ∧
        (w = .one → ∃ before after, b.files = before ++ file :: after ∧
          ∀ f ∈ before, ∃ fragments, parser f = .ok fragments) ∧
        (∀ r, (b.parse parser schedule).MayEnd r → r.1 = .error (.unparsed file e)) ∧
        ∀ r, (b.resolved parser schedule).MayEnd r →
          r.1 = .error (.unparsed file e) ∧ r.2.diagnostics = []) := by
  constructor
  · intro hall
    rcases parses_or_fails parser b.files with ⟨results, h⟩ | ⟨before, file, after, e, hfiles, -, he⟩
    · obtain ⟨j, hj⟩ := exists_yields_parse hw hs h
      refine ⟨results, h, fun r hr => ?_⟩
      rw [hr.1, Run.finish_eq_iff.2 hj]
    · obtain ⟨fragments, hok⟩ := hall file (by simp [hfiles])
      simp [he] at hok
  · rintro ⟨file, hfile, e, he⟩
    obtain ⟨failing, e', j, hmem, he', hfirst, hfails⟩ := exists_fails_parse hw hs hfile he
    refine ⟨failing, hmem, e', he', fun hone => ?_, fun r hr => ?_, fun r hr => ?_⟩
    · obtain ⟨before, after, results, hfiles, h⟩ := hfirst hone
      refine ⟨before, after, hfiles, fun f hf => ?_⟩
      obtain ⟨p, hp⟩ := h.exists_parseFile hf
      exact exists_of_parseFile hp
    · rw [hr.1]
      exact congrArg Prod.fst hfails
    · -- the other stages are not reached, and parsing has reported nothing
      have hresolved : (b.resolved parser schedule).Fails [] (.unparsed failing e') j := by
        rw [resolved]
        exact Run.fails_bind.2 (.inl hfails)
      have hquiet := isQuiet_parse b parser schedule []
      rw [hfails] at hquiet
      have hend : (b.resolved parser schedule).finish = (.error (.unparsed failing e'), j) := hresolved
      rw [hr.1, hr.2.diagnostics_eq, hend]
      exact ⟨rfl, hquiet⟩

/-- Three files for two workers. -/
def threeFiles : Batch where
  files := ["a.yml", "b.yml", "c.yml"]
  settings := .empty
  external := []
  asked := some 2

/-- The last file finishes first, and the others finish together, the second one before the first. -/
def backwards : Schedule := [[2], [1, 0]]

/-- Some files cannot be parsed, and nothing is in the others. -/
def refusing (bad : List String) : Parser := fun file =>
  if file ∈ bad then .error .malformed else .ok []

/-- A listener that always fails. -/
def alwaysFailing : Journal.Listener := fun _ _ => .error .malformed

theorem parse_all_or_nothing_threeFiles :
    threeFiles.settings.workers threeFiles.asked threeFiles.available = .ok (.several 2) ∧
      backwards.IsComplete threeFiles.files.length ∧
      ((threeFiles.parse (refusing []) backwards).finishHeardBy alwaysFailing).1 =
        .ok [⟨"a.yml", []⟩, ⟨"b.yml", []⟩, ⟨"c.yml", []⟩] ∧
      ∃ file ∈ threeFiles.files,
        ((threeFiles.resolved (refusing ["a.yml", "b.yml"]) backwards).finishHeardBy alwaysFailing).1 =
          .error (.unparsed file .malformed) := by
  have hw : threeFiles.settings.workers threeFiles.asked threeFiles.available = .ok (.several 2) := by
    decide
  have hs : backwards.IsComplete threeFiles.files.length := by
    constructor
    · decide
    · decide
  refine ⟨hw, hs, ?_, ?_⟩
  · have hall : ∀ file ∈ threeFiles.files, ∃ fragments, refusing [] file = .ok fragments :=
      fun file _ => ⟨[], rfl⟩
    obtain ⟨results, h, hend⟩ := (parse_all_or_nothing hw hs).1 hall
    rw [hend _ (Run.mayEnd_finishHeardBy alwaysFailing _)]
    simpa [threeFiles, parseFile, refusing, List.forall₂_cons_left_iff] using h
  · have hsome : ∃ file ∈ threeFiles.files, ∃ e, refusing ["a.yml", "b.yml"] file = .error e :=
      ⟨"a.yml", by decide, .malformed, rfl⟩
    obtain ⟨file, hmem, e, he, -, -, hend⟩ := (parse_all_or_nothing hw hs).2 hsome
    have hcause : e = .malformed := by
      rw [refusing] at he
      split at he
      · exact (Except.error.inj he).symm
      · simp at he
    rw [hcause] at hend
    exact ⟨file, hmem, (hend _ (Run.mayEnd_finishHeardBy alwaysFailing _)).1⟩

end Batch

end DocGraph
