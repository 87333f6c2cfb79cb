import DocGraph.Proofs.Settings.Merge
import DocGraph.Settings.Load

/-!
# Settings along their paths

A path leads through nested settings from key to key. What merged settings hold where it ends is decided
there and nowhere else: if both sides lead on to a value, the one is laid over the other under the last key
of the path; if only the side above does, its value is taken; and if it says nothing there and hides
nothing on the way, what the side below says stays.

Main statement: settings can be merged along all their paths, as long as lists of external classes hold texts
only. Whether a value is replaced, kept, taken over or united can then be read off both sides at its path.
-/

namespace DocGraph

/-! ### Paths -/

namespace Value

variable {v w : Value} {ps : List (Scalar × Value)} {key : Scalar} {path : List Scalar}

/-- A value is a mapping, perhaps one that contains itself. -/
def IsMapping (v : Value) : Prop := ∃ ps, v.opened = .map ps

/-- A value is a list, perhaps one that contains itself. -/
def IsList (v : Value) : Prop := ∃ xs, v.opened = .list xs

lemma IsMapping.not_isList (h : v.IsMapping) : ¬v.IsList := by
  obtain ⟨ps, hps⟩ := h
  rintro ⟨xs, hxs⟩
  cases hps.symm.trans hxs

/-- What a path leads to. -/
def at? (v : Value) : List Scalar → Option Value
  | [] => some v
  | key :: path =>
    match v.opened with
    | .map ps => (find? ps key).bind (at? · path)
    | _ => none

@[simp] lemma at?_nil (v : Value) : v.at? [] = some v := rfl

lemma at?_cons_of_opened (h : v.opened = .map ps) (key : Scalar) (path : List Scalar) :
    v.at? (key :: path) = (find? ps key).bind (at? · path) := by
  rw [at?, h]

lemma at?_cons_of_not_isMapping (h : ¬v.IsMapping) (key : Scalar) (path : List Scalar) :
    v.at? (key :: path) = none := by
  rw [at?]
  split
  · next ps hps => exact absurd ⟨ps, hps⟩ h
  · rfl

/-- A path leads on from mappings only. -/
lemma at?_cons_eq_some_iff :
    v.at? (key :: path) = some w ↔
      ∃ ps held, v.opened = .map ps ∧ find? ps key = some held ∧ held.at? path = some w := by
  rw [at?]
  cases v.opened <;> simp [Option.bind_eq_some_iff]

/-- The last key of a path is one of the mapping that the rest of it leads to. -/
lemma at?_concat_eq_some_iff :
    v.at? (path ++ [key]) = some w ↔
      ∃ u ps, v.at? path = some u ∧ u.opened = .map ps ∧ find? ps key = some w := by
  induction path generalizing v with
  | nil => simp [at?_cons_eq_some_iff]
  | cons k path ih =>
    simp only [List.cons_append, at?_cons_eq_some_iff, ih]
    grind

lemma exists_mem_of_find? (h : find? ps key = some v) : ∃ p ∈ ps, p.1.same key = true ∧ p.2 = v := by
  obtain ⟨p, hp, rfl⟩ := Option.map_eq_some_iff.1 h
  have hsame := List.find?_some hp
  exact ⟨p, List.mem_of_find?_eq_some hp, hsame, rfl⟩

end Value

namespace Settings

open Value

variable {ps qs rs : List (Scalar × Value)} {xs ys : List Value} {key : Scalar}
  {path : List Scalar} {v w b old new : Value}

/-! ### Names of external classes -/

/-- A list holds texts only. -/
def HoldsTexts (xs : List Value) : Prop := ∀ x ∈ xs, ∃ n, x = .text n

/-- Every list of external classes holds texts only, wherever it stands. -/
def NamesTexts (v : Value) : Prop :=
  ∀ path w xs, v.at? path = some w → path.getLast? = some externalKey → w.opened = .list xs →
    HoldsTexts xs

lemma NamesTexts.of_find? (h : NamesTexts v) (hv : v.opened = .map ps) (hw : find? ps key = some w) :
    NamesTexts w := by
  intro path u xs hu hlast hxs
  refine h (key :: path) u xs ?_ ?_ hxs
  · rw [at?_cons_of_opened hv, hw, Option.bind_some, hu]
  · rw [List.getLast?_cons, hlast, Option.getD_some]

/-- Of texts the union is formed, in strictly rising order. -/
lemma exists_unite_of_texts (hxs : HoldsTexts xs) (hys : HoldsTexts ys) :
    ∃ ns : List String, unite xs ys = .ok (.list (ns.map Value.text)) ∧ ns.Pairwise (· < ·) ∧
      ∀ n, n ∈ ns ↔ .text n ∈ xs ∨ .text n ∈ ys := by
  obtain ⟨names, hnames⟩ := exists_eq_map_text (List.forall_mem_append.2 ⟨hxs, hys⟩)
  obtain ⟨ns, hns, hnodup⟩ := Scalar.exists_distinct_map_text names
  refine ⟨Catalog.inOrder ns, ?_, Catalog.pairwise_inOrder hnodup, ?_⟩
  · have hmembers : (xs ++ ys).mapM Value.scalar? = .ok (names.map .text) := by
      rw [mapM_scalar?_eq_ok_iff, ← hnames, List.map_map]
      rfl
    simp only [unite, bind_eq_ok, pure_eq_ok]
    refine ⟨_, hmembers, _, hns.symm ▸ Scalar.sorted_map_text ns, ?_⟩
    rw [List.map_map]
    rfl
  · intro n
    have hmem : Scalar.text n ∈ Scalar.distinct (names.map .text) ↔ Value.text n ∈ xs ++ ys := by
      rw [Scalar.text_mem_distinct, ← hnames]
      simp
    rw [← List.mem_append, ← hmem, hns, Catalog.inOrder, List.mem_mergeSort]
    simp

/-! ### Plain settings -/

/-- Settings of which no mapping contains itself, and whose lists of external classes hold texts only. -/
inductive IsPlain : Value → Prop
  | scalar (s : Scalar) : IsPlain (.scalar s)
  | list (xs : List Value) : IsPlain (.list xs)
  | map {ps : List (Scalar × Value)} (hvalues : ∀ p ∈ ps, IsPlain p.2)
      (hnames : ∀ xs, (externalKey, .list xs) ∈ ps → HoldsTexts xs) : IsPlain (.map ps)

namespace IsPlain

@[simp] lemma map_iff :
    IsPlain (.map ps) ↔
      (∀ p ∈ ps, IsPlain p.2) ∧ ∀ xs, (externalKey, .list xs) ∈ ps → HoldsTexts xs := by
  constructor
  · rintro (_ | _ | ⟨hvalues, hnames⟩)
    exact ⟨hvalues, hnames⟩
  · exact fun h => .map h.1 h.2

attribute [simp] scalar list

lemma opened_eq (h : IsPlain v) : v.opened = v := by cases h <;> rfl

lemma of_find? (h : IsPlain (.map ps)) (hw : find? ps key = some w) : IsPlain w := by
  obtain ⟨p, hp, -, rfl⟩ := exists_mem_of_find? hw
  cases h with
  | map hvalues _ => exact hvalues p hp

lemma of_at? (h : IsPlain v) (hw : v.at? path = some w) : IsPlain w := by
  induction path generalizing v with
  | nil => exact Option.some.inj hw ▸ h
  | cons key path ih =>
    obtain ⟨ps, held, hps, hheld, hrest⟩ := at?_cons_eq_some_iff.1 hw
    obtain rfl := h.opened_eq.symm.trans hps
    exact ih (h.of_find? hheld) hrest

/-- Plain settings name external classes by texts along every path. -/
lemma namesTexts (h : IsPlain v) : NamesTexts v := by
  intro path w xs hw hlast hxs
  obtain ⟨init, rfl⟩ := List.getLast?_eq_some_iff.1 hlast
  obtain ⟨u, ps, hu, hps, hfind⟩ := at?_concat_eq_some_iff.1 hw
  obtain rfl := (h.of_at? hu).opened_eq.symm.trans hps
  obtain rfl := (h.of_at? hw).opened_eq.symm.trans hxs
  obtain ⟨⟨key, _⟩, hp, hsame, rfl⟩ := exists_mem_of_find? hfind
  obtain rfl := Scalar.same_text_iff.1 hsame
  cases h.of_at? hu with
  | map _ hnames => exact hnames xs hp

end IsPlain

/-! ### Merging -/

/-- Plain settings can have anything laid over them that names external classes by texts. -/
lemma exists_mergeValue (hold : IsPlain old) (hv : NamesTexts v)
    (hxs : key = externalKey → ∀ xs, old = .list xs → HoldsTexts xs)
    (hys : key = externalKey → ∀ ys, v.opened = .list ys → HoldsTexts ys) :
    ∃ new, mergeValue key v old = .ok new := by
  induction hold generalizing key v with
  | scalar s => exact ⟨v, mergeValue_scalar ..⟩
  | list xs =>
    rw [mergeValue_list]
    cases hopened : v.opened with
    | list ys =>
      simp only
      split
      · next hkey =>
        have hkey : key = externalKey := Scalar.same_text_iff.1 hkey
        obtain ⟨ns, hns, -⟩ := exists_unite_of_texts (hxs hkey xs rfl) (hys hkey ys hopened)
        exact ⟨_, hns⟩
      · exact ⟨v, rfl⟩
    | _ => exact ⟨v, rfl⟩
  | @map ps hvalues hnames ih =>
    rw [mergeValue_map]
    cases hopened : v.opened with
    | map qs =>
      have hpairs : ∀ p ∈ ps, ∃ new, laidOver qs p = .ok new := by
        rintro ⟨key, held⟩ hp
        rw [laidOver]
        cases hw : find? qs key with
        | none => exact ⟨held, rfl⟩
        | some w =>
          refine ih _ hp (hv.of_find? hopened hw) ?_ ?_
          · rintro rfl xs rfl
            exact hnames xs hp
          · rintro rfl ys hys
            refine hv [externalKey] w ys ?_ rfl hys
            rw [at?_cons_of_opened hopened, hw, Option.bind_some, at?_nil]
      obtain ⟨rs, hrs⟩ := exists_mergePairs hpairs
      exact ⟨.map rs, map_eq_ok.2 ⟨rs, hrs, rfl⟩⟩
    | _ => exact ⟨v, rfl⟩

/-- A mapping over a mapping. -/
lemma exists_of_mergeValue_map (h : mergeValue key v (.map ps) = .ok new) (hv : v.opened = .map qs) :
    ∃ rs, new = .map rs ∧ mergePairs ps qs = .ok rs := by
  rw [mergeValue_map, hv] at h
  obtain ⟨rs, hrs, rfl⟩ := map_eq_ok.1 h
  exact ⟨rs, rfl, hrs⟩

/-- A value replaces what it is laid over, unless both are mappings, or lists of external classes. -/
lemma mergeValue_eq_self (hmappings : ¬(v.IsMapping ∧ old.IsMapping))
    (hlists : ¬(key = externalKey ∧ v.IsList ∧ old.IsList)) : mergeValue key v old = .ok v := by
  cases old with
  | map ps =>
    rw [mergeValue_map]
    split
    · next qs hqs => exact absurd ⟨⟨qs, hqs⟩, ps, rfl⟩ hmappings
    · rfl
  | list xs =>
    rw [mergeValue_list]
    split
    · next ys hys =>
      rw [if_neg]
      exact fun hkey => hlists ⟨Scalar.same_text_iff.1 hkey, ⟨ys, hys⟩, xs, rfl⟩
    · rfl
  | _ => simp [mergeValue]

/-- A mapping replaces whatever is no mapping. -/
lemma mergeValue_of_not_isMapping (key : Scalar) (hv : v.IsMapping) (hold : ¬old.IsMapping) :
    mergeValue key v old = .ok v :=
  mergeValue_eq_self (fun h => hold h.2) fun h => hv.not_isList h.2.1

/-- A mapping is merged with a mapping, and replaces anything else. -/
lemma mergeValue_of_isPlain (h : mergeValue key v old = .ok new) (hold : IsPlain old)
    (hv : v.opened = .map qs) :
    (∃ ps rs, old = .map ps ∧ new = .map rs ∧ mergePairs ps qs = .ok rs) ∨
      (¬old.IsMapping ∧ new = v) := by
  by_cases hmapping : old.IsMapping
  · obtain ⟨ps, hps⟩ := hmapping
    obtain rfl := hold.opened_eq.symm.trans hps
    obtain ⟨rs, rfl, hrs⟩ := exists_of_mergeValue_map h hv
    exact .inl ⟨ps, rs, rfl, rfl, hrs⟩
  · rw [mergeValue_of_not_isMapping key ⟨qs, hv⟩ hmapping] at h
    exact .inr ⟨hmapping, (Except.ok.inj h).symm⟩

/-! ### Merging along a path -/

/-- Where both sides lead on, the one is laid over the other. -/
lemma at?_of_both (h : mergeValue key v old = .ok new) (hold : IsPlain old)
    (hv : v.at? path = some w) (hb : old.at? path = some b) :
    ∃ r, new.at? path = some r ∧ mergeValue (path.getLastD key) w b = .ok r := by
  induction path generalizing key v old new with
  | nil =>
    obtain rfl := Option.some.inj hv
    obtain rfl := Option.some.inj hb
    exact ⟨new, rfl, h⟩
  | cons k path ih =>
    obtain ⟨qs, v', hqs, hv', hvrest⟩ := at?_cons_eq_some_iff.1 hv
    obtain ⟨ps, old', hps, hold', hbrest⟩ := at?_cons_eq_some_iff.1 hb
    obtain rfl := hold.opened_eq.symm.trans hps
    obtain ⟨rs, rfl, hrs⟩ := exists_of_mergeValue_map h hqs
    obtain ⟨new', hnew', hmerge⟩ := find?_mergePairs_of_both hrs hold' hv'
    obtain ⟨r, hr, hlast⟩ := ih hmerge (hold.of_find? hold') hvrest hbrest
    refine ⟨r, at?_cons_eq_some_iff.2 ⟨rs, new', rfl, hnew', hr⟩, ?_⟩
    rwa [List.getLastD_cons]

/-- Where only the side above leads on, its value is taken. -/
lemma at?_of_above (h : mergeValue key v old = .ok new) (hold : IsPlain old)
    (hv : v.at? path = some w) (hb : old.at? path = none) : new.at? path = some w := by
  induction path generalizing key v old new with
  | nil => simp at hb
  | cons k path ih =>
    obtain ⟨qs, v', hqs, hv', hvrest⟩ := at?_cons_eq_some_iff.1 hv
    rcases mergeValue_of_isPlain h hold hqs with ⟨ps, rs, rfl, rfl, hrs⟩ | ⟨-, rfl⟩
    · rw [at?_cons_of_opened rfl] at hb ⊢
      cases hold' : find? ps k with
      | none => rw [find?_mergePairs_of_eq_none hrs hold', hv', Option.bind_some, hvrest]
      | some old' =>
        rw [hold', Option.bind_some] at hb
        obtain ⟨new', hnew', hmerge⟩ := find?_mergePairs_of_both hrs hold' hv'
        rw [hnew', Option.bind_some, ih hmerge (hold.of_find? hold') hvrest hb]
    · exact hv

/-- Where the side above says nothing and hides nothing on the way, what the side below says stays. -/
lemma at?_of_below (h : mergeValue key v old = .ok new) (hold : IsPlain old)
    (hv : v.at? path = none) (hway : ∀ way u, way <+: path → v.at? way = some u → u.IsMapping) :
    new.at? path = old.at? path := by
  induction path generalizing key v old new with
  | nil => simp at hv
  | cons k path ih =>
    obtain ⟨qs, hqs⟩ := hway [] v List.nil_prefix rfl
    rcases mergeValue_of_isPlain h hold hqs with ⟨ps, rs, rfl, rfl, hrs⟩ | ⟨hmapping, rfl⟩
    · rw [at?_cons_of_opened hqs] at hv
      rw [at?_cons_of_opened rfl, at?_cons_of_opened rfl]
      cases hold' : find? ps k with
      | none => rw [find?_mergePairs_of_eq_none hrs hold', hv, Option.bind_none]
      | some old' =>
        cases hv' : find? qs k with
        | none => rw [find?_mergePairs_of_below hrs hold' hv']
        | some v' =>
          obtain ⟨new', hnew', hmerge⟩ := find?_mergePairs_of_both hrs hold' hv'
          rw [hv', Option.bind_some] at hv
          rw [hnew', Option.bind_some, Option.bind_some]
          refine ih hmerge (hold.of_find? hold') hv fun way u hprefix hu => ?_
          refine hway (k :: way) u ((List.prefix_cons_inj k).2 hprefix) ?_
          rw [at?_cons_of_opened hqs, hv', Option.bind_some, hu]
    · rw [hv, at?_cons_of_not_isMapping hmapping]

/-! ### Merged settings -/

/-- The result of laying settings over others, along all paths. -/
structure IsMerged (base update result : Value) : Prop where
  /-- Where both sides hold a mapping, the keys below keep their order, and the new ones follow in theirs. -/
  keys : ∀ path b u ps qs, base.at? path = some b → b.opened = .map ps → update.at? path = some u →
    u.opened = .map qs → ∃ rs, result.at? path = some (.map rs) ∧
      rs.map Prod.fst =
        ps.map Prod.fst ++ (qs.map Prod.fst).filter fun key => (find? ps key).isNone
  /-- What is no mapping stands in the result as it stands above, unless it is a list of external classes
  over a list. -/
  replaced : ∀ path u, update.at? path = some u → ¬u.IsMapping →
    ¬(path.getLast? = some externalKey ∧ u.IsList ∧ ∃ b, base.at? path = some b ∧ b.IsList) →
    result.at? path = some u
  /-- Two lists of external classes give their union, in strictly rising order. -/
  united : ∀ path b u xs ys, path.getLast? = some externalKey → base.at? path = some b →
    b.opened = .list xs → update.at? path = some u → u.opened = .list ys →
    ∃ ns : List String, result.at? path = some (.list (ns.map Value.text)) ∧
      ns.Pairwise (· < ·) ∧ ∀ n, n ∈ ns ↔ .text n ∈ xs ∨ .text n ∈ ys
  /-- What the settings above say nothing of, and do not hide on the way, is as below. -/
  kept : ∀ path, update.at? path = none →
    (∀ way u, way <+: path → way ≠ path → update.at? way = some u → u.IsMapping) →
    result.at? path = base.at? path
  /-- A mapping over what is no mapping stands in the result unchanged. -/
  taken : ∀ path u, update.at? path = some u → u.IsMapping →
    (∀ b, base.at? path = some b → ¬b.IsMapping) → result.at? path = some u

lemma getLastD_null : path.getLastD .null = externalKey ↔ path.getLast? = some externalKey := by
  rw [List.getLastD_eq_getLast?]
  cases path.getLast? <;> simp [externalKey]

lemma isMerged_of_mergeValue {base update result : Value}
    (h : mergeValue .null update base = .ok result) (hbase : IsPlain base)
    (hupdate : NamesTexts update) : IsMerged base update result where
  keys path b u ps qs hb hps hu hqs := by
    obtain ⟨r, hr, hmerge⟩ := at?_of_both h hbase hu hb
    obtain rfl := (hbase.of_at? hb).opened_eq.symm.trans hps
    obtain ⟨rs, rfl, hrs⟩ := exists_of_mergeValue_map hmerge hqs
    exact ⟨rs, hr, map_fst_mergePairs hrs⟩
  replaced path u hu hmapping hlists := by
    cases hb : base.at? path with
    | none => exact at?_of_above h hbase hu hb
    | some b =>
      obtain ⟨r, hr, hmerge⟩ := at?_of_both h hbase hu hb
      rw [mergeValue_eq_self (fun hboth => hmapping hboth.1)] at hmerge
      · rw [hr, Except.ok.inj hmerge]
      · rintro ⟨hkey, hulist, hblist⟩
        exact hlists ⟨getLastD_null.1 hkey, hulist, b, hb, hblist⟩
  united path b u xs ys hlast hb hxs hu hys := by
    obtain ⟨r, hr, hmerge⟩ := at?_of_both h hbase hu hb
    obtain rfl := (hbase.of_at? hb).opened_eq.symm.trans hxs
    obtain ⟨ns, hns, hrising, hmem⟩ :=
      exists_unite_of_texts (hbase.namesTexts path _ xs hb hlast hxs) (hupdate path u ys hu hlast hys)
    rw [getLastD_null.2 hlast, mergeValue_list, hys] at hmerge
    have hsame : externalKey.same externalKey = true := Scalar.same_text_iff.2 rfl
    simp only [if_pos hsame] at hmerge
    obtain rfl := Except.ok.inj (hns.symm.trans hmerge)
    exact ⟨ns, hr, hrising, hmem⟩
  kept path hu hway := by
    refine at?_of_below h hbase hu fun way u hprefix hway' => ?_
    refine hway way u hprefix ?_ hway'
    rintro rfl
    cases hu.symm.trans hway'
  taken path u hu hmapping hb := by
    cases hb' : base.at? path with
    | none => exact at?_of_above h hbase hu hb'
    | some b =>
      obtain ⟨r, hr, hmerge⟩ := at?_of_both h hbase hu hb'
      rw [mergeValue_of_not_isMapping _ hmapping (hb b hb')] at hmerge
      rw [hr, Except.ok.inj hmerge]

/-- Settings that name external classes by texts can be laid over plain ones, and are so path by path. -/
theorem exists_mergeInto_isMerged {update : Value} (hbase : IsPlain (.map ps))
    (hupdate : update.IsMapping) (hnames : NamesTexts update) :
    ∃ rs, mergeInto (.map ps) update = .ok (.map rs) ∧ IsMerged (.map ps) update (.map rs) := by
  obtain ⟨qs, hqs⟩ := hupdate
  -- no settings stand under a key, so any other key than that of the external classes will do
  have hkey : Scalar.null ≠ externalKey := by simp [externalKey]
  obtain ⟨result, hresult⟩ := exists_mergeValue hbase hnames (absurd · hkey) (absurd · hkey)
  obtain ⟨rs, rfl, hrs⟩ := exists_of_mergeValue_map hresult hqs
  refine ⟨rs, ?_, isMerged_of_mergeValue hresult hbase hnames⟩
  simp [mergeInto, pairs?_eq_ok_iff.2 hqs, hrs]

/-- The default settings are plain. -/
lemma isPlain_defaultPairs : IsPlain (.map defaultPairs) := by
  simp [defaultPairs, externalKey, HoldsTexts, Value.record]

/-- A document with a group for what is none by default, and more in a group and a list that there are. -/
def nestedDocument : List (Scalar × Value) :=
  [(.text "workers", .map [(.text "most", .int 4)]),
    (.text "lint", .map [(.int 1, .null), (.text "no_doc", .bool true)]),
    (externalKey, .list [.text "Ext.Base", .text "Object"])]

lemma isPlain_nestedDocument : IsPlain (.map nestedDocument) := by
  simp [nestedDocument, externalKey, HoldsTexts]

theorem exists_mergeInto_isMerged_default :
    IsPlain (.map defaultPairs) ∧ (Value.map nestedDocument).IsMapping ∧
      NamesTexts (.map nestedDocument) ∧
      ∃ rs, mergeInto (.map defaultPairs) (.map nestedDocument) = .ok (.map rs) ∧
        IsMerged (.map defaultPairs) (.map nestedDocument) (.map rs) :=
  ⟨isPlain_defaultPairs, ⟨_, rfl⟩, isPlain_nestedDocument.namesTexts,
    exists_mergeInto_isMerged isPlain_defaultPairs ⟨_, rfl⟩ isPlain_nestedDocument.namesTexts⟩

end Settings

end DocGraph
