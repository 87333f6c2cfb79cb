import DocGraph.Proofs.Catalog.Declaration
import DocGraph.Proofs.Files.Tree
import DocGraph.Proofs.Graph.Edge
import DocGraph.Proofs.Outcome
import Mathlib.Data.List.Sort

/-!
# Collected files

An input that is a directory stands for the documents below it in the order of their paths, and any other
input for itself. The files that some inputs stand for are collected in the order of the inputs, each at
its first place.

Whatever has the name of a document counts as one, be it a file or a directory. Where no directory has such
a name, just files are collected.
-/

namespace DocGraph

/-! ### Lists without repetition -/

lemma appendNew_append (xs ys zs : List String) :
    appendNew xs (ys ++ zs) = appendNew (appendNew xs ys) zs :=
  List.foldl_append

/-- What occurs again adds nothing, whatever it is taken to. -/
lemma appendNew_map_eraseDups {α : Type} [BEq α] [LawfulBEq α] (f : α → String) (xs : List String)
    (as : List α) : appendNew xs (as.eraseDups.map f) = appendNew xs (as.map f) := by
  induction as using List.reverseRecOn with
  | nil => rfl
  | append_singleton as a ih =>
    rw [eraseDups_concat, List.map_append, appendNew_append, ← ih]
    split_ifs with ha
    · have hmem : f a ∈ appendNew xs (as.eraseDups.map f) :=
        mem_appendNew.2 (.inr (List.mem_map_of_mem (List.mem_eraseDups.2 ha)))
      exact (if_pos hmem).symm
    · rw [List.map_append, appendNew_append]

lemma pairwise_eraseDups {α : Type} [LinearOrder α] [BEq α] [LawfulBEq α] {as : List α}
    (h : as.Pairwise (· ≤ ·)) : as.eraseDups.Pairwise (· < ·) := by
  induction as using List.reverseRecOn with
  | nil => simp
  | append_singleton as a ih =>
    obtain ⟨has, -, hlast⟩ := List.pairwise_append.1 h
    rw [eraseDups_concat]
    split_ifs with ha
    · exact ih has
    · refine List.pairwise_append.2 ⟨ih has, List.pairwise_singleton .., ?_⟩
      intro b hb c hc
      obtain rfl := List.mem_singleton.1 hc
      have hb := List.mem_eraseDups.1 hb
      refine lt_of_le_of_ne (hlast b hb c (List.mem_singleton_self _)) ?_
      rintro rfl
      exact ha hb

namespace FileSystem

variable {fs : FileSystem} {counts : FileTree → Prop} {input : Path} {inputs : List Path}
  {files files' : List String} {t u : FileTree} {ps : List String}

/-! ### What an input stands for -/

/-- The files that an input stands for, each once. What is below a directory is a file if it `counts`. -/
inductive StandsFor (fs : FileSystem) (counts : FileTree → Prop) (input : Path) : List String → Prop
  | directory {t : FileTree} {found : List (List String)} (ht : fs.find? input = some t)
    (hdirectory : t.isDirectory = true) (hrising : found.Pairwise (· < ·))
    (hmem : ∀ ps, ps ∈ found ↔ ∃ u, t.Below ps u ∧ counts u ∧ IsDocument (ps.getLastD "")) :
    StandsFor fs counts input (found.map fun ps => (input.inside ps).text)
  | other (h : ∀ t, fs.find? input = some t → t.isDirectory = false) :
    StandsFor fs counts input [input.text]

/-- The files that some inputs stand for, each at its first place. -/
def IsCollection (fs : FileSystem) (counts : FileTree → Prop) (inputs : List Path) (files : List String) :
    Prop :=
  ∃ shares, List.Forall₂ (fs.StandsFor counts) inputs shares ∧ files = shares.flatten.eraseDups

lemma find?_eq_some_iff : fs.find? input = some t ↔ fs.locate input = .ok t := by
  rw [find?]
  cases fs.locate input <;> simp [Except.toOption]

/-- What a directory holds tells the files it stands for, and their order. -/
lemma StandsFor.unique {share share' : List String} (h : fs.StandsFor counts input share)
    (h' : fs.StandsFor counts input share') : share = share' := by
  cases h with
  | directory ht hdirectory hrising hmem =>
    cases h' with
    | directory ht' _ hrising' hmem' =>
      cases ht.symm.trans ht'
      congr 1
      exact hrising.eq_of_mem_iff hrising' fun {ps} => (hmem ps).trans (hmem' ps).symm
    | other hother => simp [hother _ ht] at hdirectory
  | other hother =>
    cases h' with
    | directory ht hdirectory _ _ => simp [hother _ ht] at hdirectory
    | other _ => rfl

/-- The same files stand for an input if the same things below it count. -/
lemma StandsFor.congr {counts' : FileTree → Prop} {share : List String} (h : fs.StandsFor counts input share)
    (hcounts : ∀ t, fs.find? input = some t → ∀ ps u, t.Below ps u → IsDocument (ps.getLastD "") →
      (counts u ↔ counts' u)) : fs.StandsFor counts' input share := by
  cases h with
  | directory ht hdirectory hrising hmem =>
    refine .directory ht hdirectory hrising fun ps => (hmem ps).trans (exists_congr fun u => ?_)
    refine and_congr_right fun hbelow => and_congr_left fun hdocument => ?_
    exact hcounts _ ht ps u hbelow hdocument
  | other hother => exact .other hother

/-- The paths of the documents below some entries, in order. -/
def documents (es : List (String × FileTree)) : List (List String) :=
  ((FileTree.entryDescendants es).filter fun ps => isDocumentName (ps.getLastD "")).mergeSort partsAtMost

lemma mem_documents {es : List (String × FileTree)} :
    ps ∈ documents es ↔ ∃ u, (FileTree.directory es).Below ps u ∧ True ∧ IsDocument (ps.getLastD "") := by
  rw [documents, List.mem_mergeSort, List.mem_filter, isDocumentName_iff, ← FileTree.descendants,
    FileTree.mem_descendants, exists_and_right]
  simp only [true_and]

lemma inputFiles_of_directory {es : List (String × FileTree)} (h : fs.locate input = .ok (.directory es)) :
    fs.inputFiles input = .ok ((documents es).map fun ps => (input.inside ps).text) := by
  rw [inputFiles, look, h]
  rfl

lemma inputFiles_of_length (h : fs.locate input = .error .length) :
    fs.inputFiles input = .error (.nameTooLong input.text) := by
  rw [inputFiles, look, h]
  rfl

lemma inputFiles_of_other (h : ∀ t, fs.find? input = some t → t.isDirectory = false)
    (hlength : fs.locate input ≠ .error .length) : fs.inputFiles input = .ok [input.text] := by
  simp only [find?_eq_some_iff] at h
  rw [inputFiles, look]
  cases hlocate : fs.locate input with
  | error o =>
    cases o with
    | length => exact absurd hlocate hlength
    | _ => rfl
  | ok t =>
    cases t with
    | file s => rfl
    | directory es => cases h _ hlocate

/-- An input stands for what is listed for it, but for repetitions. Only a path that is too long cannot be
looked at. -/
lemma exists_standsFor (hlength : fs.locate input ≠ .error .length) :
    ∃ files share, fs.inputFiles input = .ok files ∧ fs.StandsFor (fun _ => True) input share ∧
      ∀ xs, appendNew xs share = appendNew xs files := by
  by_cases h : ∃ es, fs.find? input = some (.directory es)
  · obtain ⟨es, hes⟩ := h
    have hrising : (documents es).Pairwise (· ≤ ·) :=
      pairwise_mergeSort_of_key id (fun _ _ => partsAtMost_iff) _
    refine ⟨_, _, inputFiles_of_directory (find?_eq_some_iff.1 hes),
      .directory hes rfl (pairwise_eraseDups hrising) ?_,
      fun xs => appendNew_map_eraseDups ..⟩
    intro ps
    rw [List.mem_eraseDups]
    exact mem_documents
  · have hother : ∀ t, fs.find? input = some t → t.isDirectory = false := by
      intro t ht
      cases t with
      | file s => rfl
      | directory es => exact absurd ⟨es, ht⟩ h
    exact ⟨_, _, inputFiles_of_other hother hlength, .other hother, fun _ => rfl⟩

/-! ### Collections -/

/-- What is collected from inputs that can be looked at. -/
lemma exists_isCollection (hlength : ∀ input ∈ inputs, fs.locate input ≠ .error .length) :
    ∃ files, fs.collect inputs = .ok files ∧ fs.IsCollection (fun _ => True) inputs files := by
  have hshares : ∃ listed shares, inputs.mapM fs.inputFiles = .ok listed ∧
      List.Forall₂ (fs.StandsFor fun _ => True) inputs shares ∧
      ∀ xs, appendNew xs shares.flatten = appendNew xs listed.flatten := by
    induction inputs with
    | nil => exact ⟨[], [], rfl, .nil, fun _ => rfl⟩
    | cons input inputs ih =>
      obtain ⟨files, share, hfiles, hshare, heq⟩ := exists_standsFor (hlength input (List.mem_cons_self ..))
      obtain ⟨listed, shares, hlisted, hshares, heqs⟩ :=
        ih fun input h => hlength input (List.mem_cons_of_mem _ h)
      refine ⟨files :: listed, share :: shares, ?_, .cons hshare hshares, ?_⟩
      · rw [List.mapM_cons, hfiles, hlisted]
        rfl
      · intro xs
        rw [List.flatten_cons, List.flatten_cons, appendNew_append, appendNew_append, heq, heqs]
  obtain ⟨listed, shares, hlisted, hshares, heq⟩ := hshares
  refine ⟨appendNew [] listed.flatten, ?_, shares, hshares, ?_⟩
  · rw [collect, hlisted]
    rfl
  · rw [← heq, ← List.eraseDups_nil, appendNew_eraseDups, List.nil_append]

lemma IsCollection.unique (h : fs.IsCollection counts inputs files)
    (h' : fs.IsCollection counts inputs files') : files = files' := by
  obtain ⟨shares, hshares, rfl⟩ := h
  obtain ⟨shares', hshares', rfl⟩ := h'
  have heq : shares = shares' := by
    induction hshares generalizing shares' with
    | nil =>
      cases hshares'
      rfl
    | cons hshare _ ih =>
      cases hshares' with | cons hshare' hshares' => rw [hshare.unique hshare', ih _ hshares']
  rw [heq]

lemma IsCollection.congr {counts' : FileTree → Prop} (h : fs.IsCollection counts inputs files)
    (hcounts : ∀ input ∈ inputs, ∀ t, fs.find? input = some t → ∀ ps u, t.Below ps u →
      IsDocument (ps.getLastD "") → (counts u ↔ counts' u)) : fs.IsCollection counts' inputs files := by
  obtain ⟨shares, hshares, hfiles⟩ := h
  refine ⟨shares, ?_, hfiles⟩
  rw [List.forall₂_iff_zip] at hshares ⊢
  refine ⟨hshares.1, fun {input share} h => ?_⟩
  exact (hshares.2 h).congr (hcounts input (List.of_mem_zip h).1)

/-- Files are collected unless an input is too long to be looked at. None of them is collected twice, and
they are the files that the inputs stand for, in their order, where whatever has the name of a document
counts. If there is no directory of such a name, they are the regular files. -/
theorem collect_isCollection (fs : FileSystem) (inputs : List Path) :
    ((∃ files, fs.collect inputs = .ok files) ↔ ∀ input ∈ inputs, fs.locate input ≠ .error .length) ∧
    ∀ files, fs.collect inputs = .ok files →
      files.Nodup ∧ (∀ files', fs.IsCollection (fun _ => True) inputs files' ↔ files' = files) ∧
      ((∀ input ∈ inputs, ∀ t, fs.find? input = some t → ∀ ps u, t.Below ps u →
        IsDocument (ps.getLastD "") → u.isDirectory = false) →
        fs.IsCollection (fun u => u.isDirectory = false) inputs files) := by
  have hlooked : (∃ files, fs.collect inputs = .ok files) →
      ∀ input ∈ inputs, fs.locate input ≠ .error .length := by
    rintro ⟨files, hfiles⟩ input hinput hlength
    obtain ⟨e, he⟩ := exists_mapM_eq_error hinput (inputFiles_of_length hlength)
    simp [collect, he] at hfiles
  refine ⟨⟨hlooked, fun h => (exists_isCollection h).imp fun _ h => h.1⟩, ?_⟩
  intro files hfiles
  obtain ⟨files', hfiles', hcollection⟩ := exists_isCollection (hlooked ⟨files, hfiles⟩)
  obtain rfl : files' = files := Except.ok.inj (hfiles'.symm.trans hfiles)
  refine ⟨?_, ?_, ?_⟩
  · obtain ⟨listed, -, rfl⟩ : ∃ listed, inputs.mapM fs.inputFiles = .ok listed ∧
        appendNew [] listed.flatten = files' := by
      simpa [collect] using hfiles
    exact nodup_appendNew .nil _
  · intro files
    constructor
    · intro h
      exact h.unique hcollection
    · rintro rfl
      exact hcollection
  · intro hregular
    apply hcollection.congr
    intro input hinput t ht ps u hbelow hdocument
    simp [hregular input hinput t ht ps u hbelow hdocument]

/-- A document and a directory that has the name of one. -/
def oldEntries : List (String × FileTree) := [("a.yml", .file (.text "")), ("old.yml", .directory [])]

/-- These two in a directory of sources. -/
def oldTree : FileSystem := ⟨.directory [("src", .directory oldEntries)], []⟩

lemma locate_oldTree : oldTree.locate { parts := ["src"] } = .ok (.directory oldEntries) := rfl

lemma collect_oldTree : oldTree.collect [{ parts := ["src"] }] = .ok ["src/a.yml", "src/old.yml"] := by
  have hdocuments : documents oldEntries = [["a.yml"], ["old.yml"]] :=
    List.mergeSort_of_pairwise (by decide)
  rw [collect, List.mapM_cons, inputFiles_of_directory locate_oldTree, hdocuments]
  rfl

/-- The regular files are one file only. -/
lemma isCollection_oldTree :
    oldTree.IsCollection (fun u => u.isDirectory = false) [{ parts := ["src"] }] ["src/a.yml"] := by
  have hrising : [["a.yml"]].Pairwise (· < ·) := List.pairwise_singleton ..
  have hmem : ∀ ps, ps ∈ [["a.yml"]] ↔ ∃ u, (FileTree.directory oldEntries).Below ps u ∧
      u.isDirectory = false ∧ IsDocument (ps.getLastD "") := by
    intro ps
    rw [List.mem_singleton]
    constructor
    · rintro rfl
      exact ⟨_, .entry (List.mem_cons_self ..), rfl, isDocumentName_iff.1 (by decide)⟩
    · rintro ⟨u, hbelow, hu, -⟩
      simp only [oldEntries, FileTree.below_directory_iff] at hbelow
      simp only [List.exists_mem_cons_iff, List.not_mem_nil, FileTree.not_below_file, FileTree.not_below_empty,
        and_false, false_and, exists_false, or_false] at hbelow
      rcases hbelow with ⟨rfl, -⟩ | ⟨-, rfl⟩
      · rfl
      · cases hu
  exact ⟨[["src/a.yml"]], .cons (.directory (find?_eq_some_iff.2 locate_oldTree) rfl hrising hmem) .nil, rfl⟩

/-- More may be collected than the regular files: a directory that has the name of a document. -/
theorem not_collect_isCollection :
    ¬∀ (fs : FileSystem) (inputs : List Path) (files : List String), fs.collect inputs = .ok files →
      fs.IsCollection (fun u => u.isDirectory = false) inputs files := by
  intro h
  have heq := (h _ _ _ collect_oldTree).unique isCollection_oldTree
  exact absurd heq (by decide)

/-- Two documents, one of them in a directory, with a file of another kind. -/
def nestedEntries : List (String × FileTree) :=
  [("a-b.yml", .file (.text "")), ("notes.txt", .file (.text "")),
    ("a", .directory [("b.yaml", .file (.text ""))])]

/-- These in a directory of sources. -/
def nestedTree : FileSystem := ⟨.directory [("src", .directory nestedEntries)], []⟩

/-- A directory, a document in it, and nothing. -/
def nestedInputs : List Path :=
  [{ parts := ["src"] }, { parts := ["src", "a-b.yml"] }, { parts := ["new.yml"] }]

theorem collect_isCollection_nested :
    ∃ files, nestedTree.collect nestedInputs = .ok files ∧ files.Nodup ∧
      nestedTree.IsCollection (fun u => u.isDirectory = false) nestedInputs files := by
  obtain ⟨hlooked, hcollected⟩ := collect_isCollection nestedTree nestedInputs
  have hsrc : nestedTree.locate { parts := ["src"] } = .ok (.directory nestedEntries) := rfl
  have hfile : nestedTree.locate { parts := ["src", "a-b.yml"] } = .ok (.file (.text "")) := rfl
  have hnew : nestedTree.locate { parts := ["new.yml"] } = .error .missing := rfl
  obtain ⟨files, hfiles⟩ := hlooked.2 (by simp [nestedInputs, hsrc, hfile, hnew])
  obtain ⟨hnodup, -, hregular⟩ := hcollected files hfiles
  refine ⟨files, hfiles, hnodup, hregular ?_⟩
  simp only [find?_eq_some_iff]
  intro input hinput t ht ps u hbelow hdocument
  simp only [nestedInputs, List.mem_cons, List.not_mem_nil, or_false] at hinput
  rcases hinput with rfl | rfl | rfl
  · cases hsrc.symm.trans ht
    rw [nestedEntries, FileTree.below_directory_iff] at hbelow
    have hno : ¬IsDocument "a" := isDocumentName_iff.not.1 (by decide)
    simp only [FileTree.below_directory_iff, List.exists_mem_cons_iff, List.not_mem_nil,
      FileTree.not_below_file, and_false, false_and, exists_false, or_false] at hbelow
    rcases hbelow with ⟨-, rfl⟩ | ⟨-, rfl⟩ | ⟨rfl, -⟩ | ⟨qs, -, -, rfl⟩
    · rfl
    · rfl
    · exact absurd hdocument hno
    · rfl
  · cases hfile.symm.trans ht
    cases hbelow
  · cases hnew.symm.trans ht

end FileSystem

end DocGraph
