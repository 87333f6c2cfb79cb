import DocGraph.Proofs.Catalog.Aggregation
import Mathlib.Data.List.Induction

/-!
# Declarations of a class

A class may be declared several times and in several files, and its members may be there before it. What
its record says of the class itself can be read off the declarations alone, in their order: of attributes
that only one declaration can decide about, the first or the last one that is not empty; whether any
declaration has a mark; and all names that are listed, each once.

So members, and the declarations of other classes, have no influence on it, wherever they stand.
-/

namespace DocGraph

/-! ### Deciding values -/

namespace MergePolicy

variable {α : Type}

/-- The value that decides: the first one or the last one. -/
def pick (policy : MergePolicy) (xs : List α) : Option α :=
  match policy with
  | .first => xs.head?
  | .last => xs.getLast?

/-- One more value settles what has been picked so far. -/
lemma pick_append_toList (policy : MergePolicy) (xs : List α) (new : Option α) :
    policy.pick (xs ++ new.toList) = policy.settle (policy.pick xs) new := by
  cases new with
  | none => cases policy <;> simp [pick, settle]
  | some x => cases policy <;> simp [pick, settle]

lemma mem_of_pick {policy : MergePolicy} {xs : List α} {x : α} (h : policy.pick xs = some x) :
    x ∈ xs := by
  cases policy with
  | first => exact List.mem_of_head? h
  | last => exact List.mem_of_getLast? h

/-- A text that is missing where it is empty is settled as one that may be left out. -/
lemma settleText_getD {old : Option String} (hold : ∀ s ∈ old, ¬s.isEmpty) (policy : MergePolicy)
    (new : String) :
    policy.settleText (old.getD "") new = (policy.settleText? old (some new)).getD "" := by
  by_cases hnew : new.isEmpty <;> cases old <;> cases policy <;>
    simp_all [settleText, settleText?, settle, Option.filter]

end MergePolicy

lemma appendNew_eraseDups (xs ys : List String) :
    appendNew xs.eraseDups ys = (xs ++ ys).eraseDups := by
  induction ys generalizing xs with
  | nil => simp [appendNew]
  | cons y ys ih =>
    have hstep : (if y ∈ xs.eraseDups then xs.eraseDups else xs.eraseDups ++ [y]) =
        (xs ++ [y]).eraseDups := by
      simp only [eraseDups_concat, List.mem_eraseDups]
    rw [appendNew, List.foldl_cons, ← appendNew, hstep, ih, List.append_assoc, List.singleton_append]

/-! ### What declarations say -/

namespace Fragment

/-- The declarations of a class. -/
def declarations (fs : List Fragment) (cls : String) : List Fragment :=
  fs.filter fun f => f.key? = none ∧ f.name = cls

/-- The texts that fragments give for one of their parts. -/
def given (part : Fragment → Option String) (fs : List Fragment) : List String :=
  (fs.filterMap part).filter fun s => !s.isEmpty

lemma declarations_concat (fs : List Fragment) (f : Fragment) (cls : String) :
    declarations (fs ++ [f]) cls =
      declarations fs cls ++ if f.key? = none ∧ f.name = cls then [f] else [] := by
  simp [declarations, List.filter_cons]

lemma given_concat (part : Fragment → Option String) (fs : List Fragment) (f : Fragment) :
    given part (fs ++ [f]) = given part fs ++ ((part f).filter fun s => !s.isEmpty).toList := by
  cases h : part f <;> simp [given, h, List.filter_cons, Option.filter_some, apply_ite]

lemma pick_given_concat (policy : MergePolicy) (part : Fragment → Option String)
    (fs : List Fragment) (f : Fragment) :
    policy.pick (given part (fs ++ [f])) = policy.settleText? (policy.pick (given part fs)) (part f) := by
  rw [given_concat, MergePolicy.pick_append_toList]
  rfl

lemma not_isEmpty_of_pick_given {policy : MergePolicy} {part : Fragment → Option String}
    {fs : List Fragment} : ∀ s ∈ policy.pick (given part fs), ¬s.isEmpty := by
  intro s hs
  simpa using (List.mem_filter.1 (MergePolicy.mem_of_pick hs)).2

end Fragment

namespace Record

open Fragment

variable {policy : MergePolicy} {ds : List Fragment} {r r' : Record}

/-- What a record says of its class is what some declarations of the class come to. -/
structure IsDeclaredBy (policy : MergePolicy) (ds : List Fragment) (r : Record) : Prop where
  doc : r.doc = (policy.pick (given (fun f => some f.doc) ds)).getD ""
  parent : r.parent = policy.pick (given (·.parent) ds)
  since : r.since = policy.pick (given (·.since) ds)
  overrides : r.overrides = policy.pick (given (·.overrides) ds)
  enumeration : r.enumeration = policy.pick (ds.filterMap (·.enumeration))
  ignored : r.ignored = ds.any (·.ignored)
  singleton : r.singleton = ds.any (·.singleton)
  isPrivate : r.isPrivate = ds.any (·.isPrivate)
  mixins : r.mixins = (ds.flatMap (·.mixins)).eraseDups
  alternateNames : r.alternateNames = (ds.flatMap (·.alternateNames)).eraseDups
  file : r.file = ds.head?.elim "" (·.file)
  line : r.line = ds.head?.elim 0 (·.line)
  placeholder : r.placeholder = ds.isEmpty

lemma isDeclaredBy_nil (policy : MergePolicy) (cls : String) :
    IsDeclaredBy policy [] { name := cls } := by
  cases policy <;> constructor <;> rfl

/-- One more declaration. -/
lemma IsDeclaredBy.declare (h : r.IsDeclaredBy policy ds) (f : Fragment) :
    (r.declare policy f).IsDeclaredBy policy (ds ++ [f]) where
  doc := by
    rw [pick_given_concat, ← MergePolicy.settleText_getD not_isEmpty_of_pick_given, ← h.doc]
    rfl
  parent := by
    rw [pick_given_concat, ← h.parent]
    rfl
  since := by
    rw [pick_given_concat, ← h.since]
    rfl
  overrides := by
    rw [pick_given_concat, ← h.overrides]
    rfl
  enumeration := by
    have hmore : (ds ++ [f]).filterMap (·.enumeration) =
        ds.filterMap (·.enumeration) ++ f.enumeration.toList := by
      cases hf : f.enumeration <;> simp [hf]
    rw [hmore, MergePolicy.pick_append_toList, ← h.enumeration]
    rfl
  ignored := by simp [Record.declare, h.ignored]
  singleton := by simp [Record.declare, h.singleton]
  isPrivate := by simp [Record.declare, h.isPrivate]
  mixins := by simp [Record.declare, h.mixins, appendNew_eraseDups]
  alternateNames := by simp [Record.declare, h.alternateNames, appendNew_eraseDups]
  file := by
    cases ds with
    | nil => simp [Record.declare, h.placeholder]
    | cons d ds => simp [Record.declare, h.placeholder, h.file]
  line := by
    cases ds with
    | nil => simp [Record.declare, h.placeholder]
    | cons d ds => simp [Record.declare, h.placeholder, h.line]
  placeholder := by simp [Record.declare]

/-- Definitions of members leave what is said of the class. -/
lemma IsDeclaredBy.define (h : r.IsDeclaredBy policy ds) (key : MemberKey) (f : Fragment) :
    (r.define key f).IsDeclaredBy policy ds :=
  { h with }

/-- A record without the members of the class. -/
def heading (r : Record) : Record := { r with members := .empty, shadowed := [] }

lemma IsDeclaredBy.heading_eq (h : r.IsDeclaredBy policy ds) (h' : r'.IsDeclaredBy policy ds)
    (hname : r'.name = r.name) : r'.heading = r.heading := by
  simp only [heading, hname, h.doc, h'.doc, h.parent, h'.parent, h.since, h'.since, h.overrides,
    h'.overrides, h.enumeration, h'.enumeration, h.ignored, h'.ignored, h.singleton, h'.singleton,
    h.isPrivate, h'.isPrivate, h.mixins, h'.mixins, h.alternateNames, h'.alternateNames, h.file,
    h'.file, h.line, h'.line, h.placeholder, h'.placeholder]

end Record

/-! ### Gathering -/

namespace Aggregation

open Fragment

variable {policy : MergePolicy} {fs : List Fragment} {a : Aggregation}

/-- All records are as their declarations have it. -/
def AreDeclared (policy : MergePolicy) (fs : List Fragment) (a : Aggregation) : Prop :=
  ∀ c, (a.classes.record c).IsDeclaredBy policy (declarations fs c)

lemma AreDeclared.add (h : AreDeclared policy fs a) (f : Fragment) :
    AreDeclared policy (fs ++ [f]) (a.add policy f) := by
  intro c
  rw [declarations_concat]
  cases hf : f.key? with
  | none =>
    have hrecord : (a.add policy f).classes.record c =
        if f.name = c then (a.classes.record f.name).declare policy f else a.classes.record c := by
      simp only [Aggregation.add, hf, Catalog.record_insert]
    rw [hrecord]
    by_cases hc : f.name = c
    · simpa [hc] using (h c).declare f
    · simpa [hc] using h c
  | some key =>
    -- a member changes no record but that of its class, and nothing there that is declared
    have hmember : ((a.add policy f).classes.record c).IsDeclaredBy policy (declarations fs c) := by
      cases ho : f.class? with
      | none => simpa [Aggregation.add, hf, ho] using h c
      | some owner =>
        simp only [Aggregation.add, hf, ho, Catalog.record_insert]
        split
        · next hc => exact hc ▸ (h owner).define key f
        · exact h c
    simpa using hmember

lemma areDeclared_ofFiles (policy : MergePolicy) (files : List ParsedFile) :
    AreDeclared policy (files.flatMap ParsedFile.fragments) (ofFiles policy files) := by
  refine ofFiles_induction policy files ?_ ?_ ?_
  · exact fun c => Record.isDeclaredBy_nil policy c
  · exact fun fs a f h => AreDeclared.add h f
  · exact fun fs a file h => h

/-- What is gathered about a class itself is what its declarations come to; if there are none, its record is
a placeholder. Other fragments have no influence on it: files with the same declarations of a class come
to the same, but for the members. -/
theorem ofFiles_merges_declarations (policy : MergePolicy) (files : List ParsedFile) :
    let fs := files.flatMap ParsedFile.fragments
    let a := ofFiles policy files
    (∀ c r, a.classes.get? c = some r → r.IsDeclaredBy policy (declarations fs c)) ∧
      (∀ c, declarations fs c ≠ [] → ∃ r, a.classes.get? c = some r) ∧
      ∀ files' : List ParsedFile, ∀ c,
        declarations (files'.flatMap ParsedFile.fragments) c = declarations fs c →
          ∀ r ∈ a.classes.get? c, ∀ r' ∈ (ofFiles policy files').classes.get? c,
            r'.heading = r.heading := by
  intro fs a
  have hdeclared : ∀ files : List ParsedFile, ∀ c r, (ofFiles policy files).classes.get? c = some r →
      r.IsDeclaredBy policy (declarations (files.flatMap ParsedFile.fragments) c) ∧ r.name = c := by
    intro files c r hr
    have h := areDeclared_ofFiles policy files c
    have hname := (gathers_ofFiles policy files).name c
    rw [Catalog.record, hr] at h hname
    exact ⟨h, hname⟩
  refine ⟨fun c r hr => (hdeclared files c r hr).1, ?_, ?_⟩
  · intro c hc
    obtain ⟨f, hf⟩ := List.exists_mem_of_ne_nil _ hc
    obtain ⟨hmem, hof⟩ := List.mem_filter.1 hf
    obtain ⟨hkey, rfl⟩ := of_decide_eq_true hof
    rw [← Option.isSome_iff_exists, OrderedMap.get?_isSome_iff, (gathers_ofFiles policy files).classes,
      List.mem_eraseDups, List.mem_filterMap]
    exact ⟨f, hmem, by simp [mention?, hkey]⟩
  · intro files' c hsame r hr r' hr'
    obtain ⟨h, hname⟩ := hdeclared files c r hr
    obtain ⟨h', hname'⟩ := hdeclared files' c r' hr'
    exact h.heading_eq (hsame ▸ h') (hname'.trans hname.symm)

end Aggregation

end DocGraph
