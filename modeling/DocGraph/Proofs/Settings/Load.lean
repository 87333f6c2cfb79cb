import DocGraph.Proofs.Settings.Merge
import DocGraph.Settings.Load

/-!
# What comes of a configuration file

A document is laid over the default settings, and the result has to name a merge policy. Where it does
not, or where the document is no mapping, the configuration is reported as unusable.

Main statement: a document that is not reported and gives no settings either ends in a fault, and that
happens in three cases only, all of them mappings: an external class is named by something other than a
text, the group with the policy is no mapping, or the policy cannot be shown.
-/

namespace DocGraph.Settings

open Value

variable {ps qs rs : List (Scalar × Value)} {doc v w : Value} {path : String} {e : Fault}

/-! ### Names of external classes -/

/-- The names of external classes by default. -/
def defaultNames : List String := ["Object", "String", "Number", "Boolean", "Function"]

/-- Pairs name an external class by something other than a text. -/
def NamesOddly (qs : List (Scalar × Value)) : Prop :=
  ∃ v xs, find? qs externalKey = some v ∧ v.opened = .list xs ∧ ¬∀ x ∈ xs, ∃ n, x = .text n

lemma scalar?_eq_error (h : v.scalar? = .error e) : e = .wrongType := by
  cases v <;> simp_all [Value.scalar?]

lemma unite_eq_error {xs ys : List Value} (h : unite xs ys = .error e) : e = .wrongType := by
  simp only [unite, bind_eq_error, pure_ne_error, and_false, exists_false, or_false] at h
  rcases h with h | ⟨ss, -, h⟩
  · obtain ⟨x, -, hx⟩ := exists_of_mapM_eq_error h
    exact scalar?_eq_error hx
  · exact Scalar.sorted_eq_error h

/-- The default names come first in every set that they are in. -/
lemma exists_distinct_eq (ss : List Scalar) :
    ∃ rest, Scalar.distinct (defaultNames.map Scalar.text ++ ss) =
      .text "Object" :: .text "String" :: rest := by
  have hnames : Scalar.distinct (defaultNames.map Scalar.text) = defaultNames.map Scalar.text := by
    simp [defaultNames, Scalar.distinct, Scalar.addTo, Scalar.text_same_iff]
  have hgrows := Scalar.foldl_addTo_grows (defaultNames.map Scalar.text) ss
  rw [Scalar.distinct, List.foldl_append, ← Scalar.distinct, hnames]
  obtain ⟨rest, hrest⟩ := hgrows
  exact ⟨_, hrest.symm⟩

lemma exists_sorted_names_iff {ss : List Scalar} :
    (∃ ys, Scalar.sorted (Scalar.distinct (defaultNames.map Scalar.text ++ ss)) = .ok ys) ↔
      ∀ s ∈ ss, ∃ n, s = .text n := by
  have hnames : ∀ s ∈ defaultNames.map Scalar.text, ∃ n, s = .text n := by simp
  rw [← and_iff_right hnames (b := ∀ s ∈ ss, _), ← List.forall_mem_append,
    ← Scalar.forall_text_distinct_iff]
  obtain ⟨rest, hrest⟩ := exists_distinct_eq ss
  rw [hrest, Scalar.exists_sorted_iff]
  simp

/-- Names can be added to the default ones only if they are texts. -/
lemma exists_unite_iff {xs : List Value} :
    (∃ w, unite (defaultNames.map Value.text) xs = .ok w) ↔ ∀ x ∈ xs, ∃ n, x = .text n := by
  have hnames : defaultNames.map Value.text = (defaultNames.map Scalar.text).map Value.scalar := rfl
  have hinj : Function.Injective (List.map Value.scalar) :=
    List.map_injective_iff.2 fun _ _ h => Value.scalar.inj h
  simp only [unite, bind_eq_ok, pure_eq_ok, mapM_scalar?_eq_ok_iff]
  constructor
  · rintro ⟨_, ss, hss, ys, hys, rfl⟩
    obtain ⟨names, more, rfl, heq, rfl⟩ := List.map_eq_append_iff.1 hss.symm
    obtain rfl := hinj (heq.trans hnames)
    intro x hx
    obtain ⟨s, hs, rfl⟩ := List.mem_map.1 hx
    obtain ⟨n, rfl⟩ := exists_sorted_names_iff.1 ⟨ys, hys⟩ s hs
    exact ⟨n, rfl⟩
  · intro h
    obtain ⟨ns, rfl⟩ := exists_eq_map_text h
    have htexts : ∀ s ∈ ns.map Scalar.text, ∃ n, s = .text n := by simp
    obtain ⟨ys, hys⟩ := exists_sorted_names_iff.2 htexts
    refine ⟨_, defaultNames.map Scalar.text ++ ns.map Scalar.text, ?_, ys, hys, rfl⟩
    rw [List.map_append, ← hnames, List.map_map]
    rfl

/-! ### Merging with the default settings -/

lemma laidOver_names_eq_error_iff :
    laidOver qs (externalKey, .list (defaultNames.map Value.text)) = .error e ↔
      NamesOddly qs ∧ e = .wrongType := by
  rw [laidOver, NamesOddly]
  cases find? qs externalKey with
  | none => simp
  | some v =>
    simp only [mergeValue_list, Option.some.injEq, exists_and_left, exists_eq_left']
    cases v.opened with
    | list xs =>
      simp only [Value.list.injEq, exists_eq_left', ← exists_unite_iff]
      rw [if_pos (by simp [externalKey, Scalar.text_same_iff])]
      constructor
      · intro h
        exact ⟨by simp [h], unite_eq_error h⟩
      · rintro ⟨h, rfl⟩
        cases hunite : unite (defaultNames.map Value.text) xs with
        | ok w => exact absurd ⟨w, hunite⟩ h
        | error e => rw [unite_eq_error hunite]
    | _ => simp

lemma mem_defaultPairs {p : Scalar × Value} (hp : p ∈ defaultPairs) :
    p = (externalKey, .list (defaultNames.map Value.text)) ∨ (∃ s, p.2 = .scalar s) ∨
      ∃ ps, p.2 = .map ps ∧ ∀ p ∈ ps, ∃ s, p.2 = .scalar s := by
  simp only [defaultPairs, List.mem_cons, List.not_mem_nil, or_false] at hp
  rcases hp with rfl | rfl | rfl | rfl | rfl | rfl | rfl | rfl
  · exact .inr (.inl ⟨_, rfl⟩)
  · exact .inl rfl
  · exact .inr (.inl ⟨_, rfl⟩)
  · exact .inr (.inr ⟨_, rfl, by simp⟩)
  · exact .inr (.inr ⟨_, rfl, by simp⟩)
  · exact .inr (.inl ⟨_, rfl⟩)
  · exact .inr (.inl ⟨_, rfl⟩)
  · exact .inr (.inr ⟨_, rfl, by simp⟩)

/-- Anything can be laid over the default settings but odd names. -/
lemma mergePairs_default_eq_error_iff :
    mergePairs defaultPairs qs = .error e ↔ NamesOddly qs ∧ e = .wrongType := by
  rw [mergePairs_eq_error_iff]
  have hodd : ∀ e, mergeHeld qs defaultPairs = .error e → NamesOddly qs ∧ e = .wrongType := by
    intro e h
    obtain ⟨⟨key, old⟩, hp, herror⟩ := exists_of_mergeHeld_eq_error h
    rcases mem_defaultPairs hp with hp | ⟨s, rfl⟩ | ⟨ps, rfl, hps⟩
    · rw [hp] at herror
      exact laidOver_names_eq_error_iff.1 herror
    · simp at herror
    · obtain ⟨w, hw⟩ := exists_laidOver_of_scalars qs key hps
      cases herror.symm.trans hw
  refine ⟨hodd e, ?_⟩
  rintro ⟨h, rfl⟩
  have hp : (externalKey, Value.list (defaultNames.map Value.text)) ∈ defaultPairs := by
    exact List.mem_cons_of_mem _ (List.mem_cons_self ..)
  obtain ⟨e', he'⟩ := exists_mergeHeld_eq_error hp (laidOver_names_eq_error_iff.2 ⟨h, rfl⟩)
  rw [he', (hodd e' he').2]

/-! ### The merge policy -/

/-- The merge policy that a document asks for, the default one if it says nothing of it. There is none if
the group that it belongs to is no mapping. -/
def policy? (qs : List (Scalar × Value)) : Option Value :=
  match find? qs (.text "aggregation") with
  | none => some (.text MergePolicy.first.name)
  | some v =>
    match v.opened with
    | .map ps => some ((find? ps (.text "class_attributes")).getD (.text MergePolicy.first.name))
    | _ => none

lemma find?_defaultPairs_aggregation :
    find? defaultPairs (.text "aggregation") =
      some (.map [(.text "class_attributes", .text MergePolicy.first.name)]) := by
  simp [defaultPairs, find?, Scalar.text_same_iff, Value.record]

/-- The merge policy of merged settings is the one that is asked for. -/
lemma field_of_mergePairs_default (h : mergePairs defaultPairs qs = .ok rs) :
    (fieldOf rs "aggregation").field "class_attributes" =
      match policy? qs with
      | some v => .ok v
      | none => .error .noFields := by
  obtain ⟨new, hnew, hlaid⟩ := find?_mergePairs h find?_defaultPairs_aggregation
  rw [fieldOf, hnew, Option.getD_some, policy?]
  rw [laidOver] at hlaid
  cases hq : find? qs (.text "aggregation") with
  | none =>
    obtain rfl : _ = new := by simpa [hq] using hlaid
    simp [Value.field, pairs?, fieldOf]
  | some v =>
    simp only [hq, mergeValue_map] at hlaid
    cases hv : v.opened with
    | map ps =>
      rw [hv] at hlaid
      obtain ⟨rs', hmerge, rfl⟩ := map_eq_ok.1 hlaid
      obtain ⟨policy, hpolicy, hlaid⟩ := find?_mergePairs hmerge find?_cons_self
      rw [laidOver_scalar, Except.ok.injEq] at hlaid
      simp [Value.field, pairs?, fieldOf, hpolicy, hlaid, hv]
    | _ =>
      obtain rfl : v = new := by simpa [hv] using hlaid
      simp [Value.field, pairs?, hv]

/-! ### What comes of a document -/

/-- Settings name a merge policy that there is. -/
def NamesPolicy (s : Settings) : Prop :=
  ∃ ps group, s.value = .map ps ∧ (fieldOf ps "aggregation").opened = .map group ∧
    isPolicy (fieldOf group "class_attributes")

/-- A configuration gives settings with a merge policy, or is reported as unusable. -/
inductive Settled (path : String) : Except Failure Settings → Prop
  | settings {s : Settings} (h : s.NamesPolicy) : Settled path (.ok s)
  | notMapping : Settled path (.error (.configNotMapping path))
  | unknownPolicy (shown : String) : Settled path (.error (.unknownPolicy shown))

/-- The fault that pairs end in that are neither. A policy that is too deep, or that has too long a number in
it, cannot be shown in a report. -/
inductive Escapes (qs : List (Scalar × Value)) : Fault → Prop
  | oddName (hodd : NamesOddly qs) : Escapes qs .wrongType
  | noGroup (hodd : ¬NamesOddly qs) (hp : policy? qs = none) : Escapes qs .noFields
  | unshown {policy : Value} (hodd : ¬NamesOddly qs) (hp : policy? qs = some policy)
      (hn : ¬isPolicy policy) {e : Fault} (he : policy.inspect = .error e) : Escapes qs e

lemma namesPolicy_of_field {policy : Value}
    (h : (fieldOf rs "aggregation").field "class_attributes" = .ok policy) (hp : isPolicy policy) :
    NamesPolicy ⟨.map rs⟩ := by
  simp only [Value.field, pairs?, bind_eq_ok, pure_eq_ok] at h
  obtain ⟨group, hgroup, rfl⟩ := h
  split at hgroup
  · next ps hps => exact ⟨rs, group, rfl, by rw [hps, ← Except.ok.inj hgroup], hp⟩
  · simp at hgroup

section Policy

variable {policy : Value}

lemma checked_of_isPolicy (hm : mergePairs defaultPairs qs = .ok rs) (hp : policy? qs = some policy)
    (hn : isPolicy policy) : checked rs = .ok ⟨.map rs⟩ := by
  simp [checked, field_of_mergePairs_default hm, hp, hn]

lemma checked_of_shown (hm : mergePairs defaultPairs qs = .ok rs) (hp : policy? qs = some policy)
    (hn : ¬isPolicy policy) {shown : String} (hshown : policy.inspect = .ok shown) :
    checked rs = .error (.unknownPolicy shown) := by
  simp [checked, field_of_mergePairs_default hm, hp, hn, hshown]

lemma checked_of_unshown (hm : mergePairs defaultPairs qs = .ok rs) (hp : policy? qs = some policy)
    (hn : ¬isPolicy policy) (he : policy.inspect = .error e) : checked rs = .error (.fault e) := by
  simp [checked, field_of_mergePairs_default hm, hp, hn, he]

end Policy

lemma checked_of_policy?_eq_none (hm : mergePairs defaultPairs qs = .ok rs) (hp : policy? qs = none) :
    checked rs = .error (.fault .noFields) := by
  have hfield := field_of_mergePairs_default hm
  rw [hp] at hfield
  rw [checked, hfield]

/-- Merged settings end in the fault that they escape with. -/
lemma checked_eq_fault_iff (hm : mergePairs defaultPairs qs = .ok rs) :
    checked rs = .error (.fault e) ↔ Escapes qs e := by
  have hodd : ¬NamesOddly qs := by
    intro h
    cases hm.symm.trans (mergePairs_default_eq_error_iff.2 ⟨h, rfl⟩)
  constructor
  · intro h
    cases hp : policy? qs with
    | none =>
      rw [checked_of_policy?_eq_none hm hp, Except.error.injEq, Failure.fault.injEq] at h
      exact h ▸ .noGroup hodd hp
    | some policy =>
      by_cases hn : isPolicy policy
      · cases (checked_of_isPolicy hm hp hn).symm.trans h
      · cases he : policy.inspect with
        | ok shown => cases (checked_of_shown hm hp hn he).symm.trans h
        | error e' =>
          cases (checked_of_unshown hm hp hn he).symm.trans h
          exact .unshown hodd hp hn he
  · intro h
    cases h with
    | oddName h => exact absurd h hodd
    | noGroup _ hp => exact checked_of_policy?_eq_none hm hp
    | unshown _ hp hn he => exact checked_of_unshown hm hp hn he

lemma settled_checked (path : String) (hm : mergePairs defaultPairs qs = .ok rs) :
    Settled path (checked rs) ∨ ∃ e, checked rs = .error (.fault e) := by
  cases hp : policy? qs with
  | none => exact .inr ⟨_, checked_of_policy?_eq_none hm hp⟩
  | some policy =>
    have hfield := field_of_mergePairs_default hm
    rw [hp] at hfield
    by_cases hn : isPolicy policy
    · rw [checked_of_isPolicy hm hp hn]
      exact .inl (.settings (namesPolicy_of_field hfield hn))
    · cases he : policy.inspect with
      | ok shown =>
        rw [checked_of_shown hm hp hn he]
        exact .inl (.unknownPolicy shown)
      | error e => exact .inr ⟨e, checked_of_unshown hm hp hn he⟩

/-- A document ends in a fault only if it is a mapping whose pairs escape with that fault. -/
lemma ofDocument_eq_fault_iff :
    ofDocument path doc = .error (.fault e) ↔
      ∃ qs, doc.orEmpty.opened = .map qs ∧ Escapes qs e := by
  rw [ofDocument]
  cases doc.orEmpty.opened with
  | map qs =>
    simp only [Value.map.injEq, exists_eq_left']
    cases hm : mergePairs defaultPairs qs with
    | ok rs => exact checked_eq_fault_iff hm
    | error e' =>
      obtain ⟨hodd, rfl⟩ := mergePairs_default_eq_error_iff.1 hm
      simp only [Except.error.injEq, Failure.fault.injEq]
      constructor
      · rintro rfl
        exact .oddName hodd
      · rintro (_ | ⟨h, -⟩ | ⟨h, -, -, -⟩)
        · rfl
        · exact absurd hodd h
        · exact absurd hodd h
  | _ => simp

lemma settled_ofDocument (path : String) (doc : Value) :
    Settled path (ofDocument path doc) ∨ ∃ e, ofDocument path doc = .error (.fault e) := by
  rw [ofDocument]
  cases doc.orEmpty.opened with
  | map qs =>
    simp only
    cases hm : mergePairs defaultPairs qs with
    | ok rs => exact settled_checked path hm
    | error e => exact .inr ⟨e, rfl⟩
  | _ => exact .inl .notMapping

/-- A configuration file gives settings with a merge policy or is reported as unusable, unless its document
is a mapping that escapes, and then it ends in just that fault. -/
theorem load_settled_unless_escaping {fs : FileSystem}
    (hdoc : readDocument fs path = .ok (some doc)) :
    (Settled path (load fs path) ∨ ∃ e, load fs path = .error (.fault e)) ∧
      ∀ e, load fs path = .error (.fault e) ↔ ∃ qs, doc.orEmpty.opened = .map qs ∧ Escapes qs e := by
  have hload : load fs path = ofDocument path doc := by rw [load, hdoc]
  rw [hload]
  exact ⟨settled_ofDocument path doc, fun _ => ofDocument_eq_fault_iff⟩

/-- A document that gives the policy without the name of its setting. -/
def bareDocument : List (Scalar × Value) := [(.text "aggregation", .text MergePolicy.last.name)]

/-- A directory with such a document as its configuration file. -/
def bareFiles : FileSystem := ⟨.directory [("config.yml", .file (.value (.map bareDocument)))], []⟩

lemma readDocument_bareFiles :
    readDocument bareFiles "config.yml" = .ok (some (.map bareDocument)) := by
  rfl

lemma escapes_bareDocument : Escapes bareDocument .noFields := by
  have hodd : ¬NamesOddly bareDocument := by
    rintro ⟨v, xs, hfind, -⟩
    simp [bareDocument, externalKey, find?, Scalar.text_same_iff] at hfind
  exact .noGroup hodd rfl

/-- A policy in the place of its group is neither taken nor reported. -/
theorem not_load_settled :
    ¬∀ (fs : FileSystem) (path : String) (doc : Value), readDocument fs path = .ok (some doc) →
      Settled path (load fs path) := by
  intro h
  have hfault : ofDocument "config.yml" (.map bareDocument) = .error (.fault .noFields) :=
    ofDocument_eq_fault_iff.2 ⟨bareDocument, rfl, escapes_bareDocument⟩
  have hsettled := h _ _ _ readDocument_bareFiles
  rw [load, readDocument_bareFiles] at hsettled
  simp only [hfault] at hsettled
  cases hsettled

theorem load_settled_unless_escaping_bare :
    readDocument bareFiles "config.yml" = .ok (some (.map bareDocument)) ∧
      load bareFiles "config.yml" = .error (.fault .noFields) :=
  ⟨readDocument_bareFiles, ((load_settled_unless_escaping readDocument_bareFiles).2 .noFields).2
    ⟨bareDocument, rfl, escapes_bareDocument⟩⟩

end DocGraph.Settings
