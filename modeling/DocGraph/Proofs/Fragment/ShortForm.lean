import DocGraph.Proofs.Fragment.Parts
import DocGraph.Proofs.Text.Blank
import Mathlib.Data.Set.Basic

/-!
# Short forms

Several parts of an entry may be written as a bare text in the place of a mapping or of a list. What a method
returns, and the names of mixins and alternate names, are trimmed in the short form as they are in the long
one. The bare name of a parameter or of a value of an enumeration is kept with the blanks at its ends, and in
a mapping it is trimmed.

Main statement: the two forms of the first kind are read alike, whatever the text. Those of the second kind
are read alike if and only if the text has no blanks at its ends or the entry cannot be read at all.
-/

namespace DocGraph

open Text Value

variable {ps qs : List (Scalar × Value)} {file name s : String} {index : Int} {v w e e' spec spec' : Value}
  {xs ys : List Value} {f : Fragment} {fault : Fault}

/-! ### Forms of parts -/

/-- A text in double quotes. -/
def inQuotes (s : String) : String := "\"" ++ s ++ "\""

lemma trim_inQuotes (s : String) : trim (inQuotes s) = inQuotes s := by
  have hchars : (inQuotes s).toList = '"' :: (s.toList ++ ['"']) := by simp [inQuotes]
  rw [trim_eq_self_iff, hchars]
  constructor
  · simp [BeginsBare, isBlank]
  · rw [← List.cons_append, endsBare_append (by simp)]
    decide

/-- The long form of a parameter of which only the name is said. -/
def namedParam (s : String) : Value := .record [("name", .text s)]

/-- The long form of a value of an enumeration of which only the name is said. -/
def namedEnumValue (s : String) : Value := .record [("name", .text s), ("value", .text (inQuotes s))]

lemma Param.ofValue_text (s : String) : ofValue (.text s) = .ok { name := s } := rfl

lemma Param.ofValue_namedParam (s : String) : ofValue (namedParam s) = .ok { name := trim s } := by
  simp only [namedParam, record, ofValue, bind_eq_ok, pure_eq_ok, pairs?_eq_ok_iff]
  exact ⟨_, rfl, _, textOf_of_text (s := s) (by simp), _, textOf_of_null (by simp), _,
    textOf_of_null (by simp), _, textOf?_of_null (by simp), by simp [isTruthy, Scalar.isTruthy]⟩

lemma EnumValue.ofValue_text (s : String) :
    ofValue (.text s) = .ok { name := s, value := some (inQuotes s) } := rfl

lemma EnumValue.ofValue_namedEnumValue (s : String) :
    ofValue (namedEnumValue s) = .ok { name := trim s, value := some (inQuotes s) } := by
  have hquotes : trim (inQuotes s) ≠ "" := by
    rw [trim_inQuotes]
    simp [inQuotes]
  simp only [namedEnumValue, record, ofValue, bind_eq_ok, pure_eq_ok, pairs?_eq_ok_iff]
  exact ⟨_, rfl, _, textOf_of_text (s := s) (by simp), _, textOf?_of_text (s := inQuotes s) (by simp) hquotes,
    _, textOf_of_null (by simp), _, textOf_of_null (by simp), by rw [trim_inQuotes]⟩

lemma Returns.ofValue_typed (s : String) :
    ofValue (.record [("type", .text s)]) = ofValue (.text s) := by
  have hshort : ofValue (.text s) = .ok (some ⟨trim s, ""⟩) := rfl
  rw [hshort]
  simp only [record, ofValue, bind_eq_ok, pure_eq_ok, pairs?_eq_ok_iff]
  exact ⟨_, rfl, _, textOf_of_text (by simp), _, textOf_of_null (by simp), rfl⟩

lemma nameList_single (s : String) : nameList (.list [.text s]) = nameList (.text s) := by
  have hshort : nameList (.text s) = .ok (if (trim s).isEmpty then [] else [trim s]) := rfl
  rw [hshort]
  simp only [nameList, bind_eq_ok, pure_eq_ok]
  refine ⟨_, rfl, _, mapM_eq_ok_iff.2 (.cons (asText?_text s) .nil), ?_⟩
  split <;> rfl

lemma Param.ofList_list (hne : xs ≠ []) : ofList (.list xs) = xs.mapM ofValue := by
  have htrue : (Value.list xs).orEmpty = .list xs := by simp [orEmpty, isTruthy, hne]
  rw [ofList, htrue]
  rfl

/-! ### Entries that differ in one field -/

/-- Two values are mappings that hold the same in every field but one. -/
def AgreeBut (name : String) (v w : Value) : Prop :=
  ∃ ps qs, v.opened = .map ps ∧ w.opened = .map qs ∧ ∀ n ≠ name, fieldOf qs n = fieldOf ps n

lemma agreeBut_replace (ps qs : List (Scalar × Value)) (name : String) (v w : Value) :
    AgreeBut name (.map (ps ++ (.text name, v) :: qs)) (.map (ps ++ (.text name, w) :: qs)) := by
  refine ⟨_, _, rfl, rfl, fun n hn => ?_⟩
  have hkey : Scalar.text name ≠ .text n := by simpa using hn.symm
  simp only [fieldOf, find?_append, find?_cons_of_ne hkey]

lemma AgreeBut.exists_fields (h : AgreeBut name v w) {x y : Value} (hx : v.field name = .ok x)
    (hy : w.field name = .ok y) :
    ∃ ps qs, v.opened = .map ps ∧ w.opened = .map qs ∧ (∀ n ≠ name, fieldOf qs n = fieldOf ps n) ∧
      fieldOf ps name = x ∧ fieldOf qs name = y := by
  obtain ⟨ps, qs, hps, hqs, hagree⟩ := h
  simp only [field_eq_ok_iff, hps, hqs, Value.map.injEq, exists_eq_left'] at hx hy
  exact ⟨ps, qs, hps, hqs, hagree, hx, hy⟩

lemma others_of_agree (hname : name ∈ shortFields) (h : ∀ n ≠ name, fieldOf qs n = fieldOf ps n) :
    ∀ n, n ∉ shortFields → fieldOf qs n = fieldOf ps n :=
  fun n hn => h n (ne_of_mem_of_not_mem hname hn).symm

/-! ### Values of an enumeration -/

lemma EnumSpec.ofValue_of_values (hspec : v.opened = .map ps) (hvalues : fieldOf ps "values" = .list xs)
    (hne : xs ≠ []) : ofValue v = do
      let values ← xs.mapM EnumValue.ofValue
      let type ← textOf ps "type"
      return some ⟨type, values⟩ := by
  have htrue : v.isTruthy = true := by
    rw [isTruthy_of_opened_eq_map hspec, fieldOf_ne_null (by rw [hvalues]; exact nofun)]
    rfl
  have hlist : (Value.list xs).orEmpty = .list xs := by simp [orEmpty, isTruthy, hne]
  have hitems : (Value.list xs).items = .ok xs := rfl
  have hother : v ≠ .scalar (.bool true) := by
    rintro rfl
    simp at hspec
  rw [ofValue, htrue, if_neg (by decide), pairs?_eq_ok_iff.2 hspec]
  · simp only [bind, Except.bind, hvalues, hlist, hitems]
  · exact hother

section Replacing

variable {x y : Value} {a b : EnumValue} {o : Option EnumSpec}

/-- Two enumerations that differ in one value are read up to what that value is read as. -/
lemma EnumSpec.ofValue_replace (h : AgreeBut "values" v w)
    (hv : v.field "values" = .ok (.list (xs ++ x :: ys))) (hw : w.field "values" = .ok (.list (xs ++ y :: ys)))
    (hx : EnumValue.ofValue x = .ok a) (hy : EnumValue.ofValue y = .ok b) :
    ofValue w = Option.map (fun spec => { spec with values := spec.values.set xs.length b }) <$> ofValue v := by
  obtain ⟨ps, qs, hps, hqs, hagree, hpv, hqv⟩ := h.exists_fields hv hw
  have htype : textOf qs "type" = textOf ps "type" := by rw [textOf, textOf, hagree _ (by decide)]
  rw [ofValue_of_values hqs hqv (by simp), ofValue_of_values hps hpv (by simp), htype, mapM_replace hx hy]
  simp only [bind_map_left, map_bind, map_pure]
  rfl

lemma EnumSpec.ofValue_replace_of_eq (h : AgreeBut "values" v w)
    (hv : v.field "values" = .ok (.list (xs ++ x :: ys))) (hw : w.field "values" = .ok (.list (xs ++ y :: ys)))
    (heq : EnumValue.ofValue y = EnumValue.ofValue x) : ofValue w = ofValue v := by
  obtain ⟨ps, qs, hps, hqs, hagree, hpv, hqv⟩ := h.exists_fields hv hw
  have htype : textOf qs "type" = textOf ps "type" := by rw [textOf, textOf, hagree _ (by decide)]
  rw [ofValue_of_values hqs hqv (by simp), ofValue_of_values hps hpv (by simp), htype,
    mapM_replace_of_eq heq]

lemma EnumSpec.eq_of_ofValue_eq (hv : v.field "values" = .ok (.list (xs ++ x :: ys)))
    (hw : w.field "values" = .ok (.list (xs ++ y :: ys))) (ho : ofValue v = .ok o) (ho' : ofValue w = .ok o) :
    EnumValue.ofValue x = EnumValue.ofValue y := by
  obtain ⟨ps, hps, hpv⟩ := field_eq_ok_iff.1 hv
  obtain ⟨qs, hqs, hqv⟩ := field_eq_ok_iff.1 hw
  simp only [ofValue_of_values hps hpv (by simp), bind_eq_ok, pure_eq_ok] at ho
  simp only [ofValue_of_values hqs hqv (by simp), bind_eq_ok, pure_eq_ok] at ho'
  obtain ⟨values, hread, type, -, rfl⟩ := ho
  obtain ⟨values', hread', type', -, heq⟩ := ho'
  simp only [Option.some.injEq, EnumSpec.mk.injEq] at heq
  exact eq_of_mapM_replace hread (heq.2 ▸ hread')

end Replacing

/-! ### Fragments -/

/-- A computation that is another one up to a change is the same if and only if the change shows nowhere or
neither has a result. -/
lemma eq_iff_of_eq_map {ε α : Type} {g : α → α} {p : Prop} {x y : Except ε α} (hmap : y = g <$> x)
    (hsame : p → y = x) (hshows : ∀ a, x = .ok a → y = .ok a → p) : y = x ↔ p ∨ ∃ e, x = .error e := by
  constructor
  · intro h
    cases hx : x with
    | ok a => exact .inl (hshows a hx (h.trans hx))
    | error e => exact .inr ⟨e, rfl⟩
  · rintro (hp | ⟨e, rfl⟩)
    · exact hsame hp
    · exact hmap

namespace Fragment

/-- The long forms of a text that are read like the text. -/
inductive IsLongForm (s : String) : String → Value → Prop
  | returns : IsLongForm s "return" (.record [("type", .text s)])
  | mixins : IsLongForm s "mixins" (.list [.text s])
  | alternateNames : IsLongForm s "alternateNames" (.list [.text s])

lemma ofPairs_of_isLongForm (hform : IsLongForm s name v) (hagree : ∀ n ≠ name, fieldOf qs n = fieldOf ps n)
    (hps : fieldOf ps name = .text s) (hqs : fieldOf qs name = v) :
    ofPairs qs file index = ofPairs ps file index := by
  cases hform with
  | returns =>
    apply ofPairs_congr (others_of_agree (by decide) hagree)
    case hreturns => rw [hps, hqs, Returns.ofValue_typed]
    all_goals rw [hagree _ (by decide)]
  | mixins =>
    apply ofPairs_congr (others_of_agree (by decide) hagree)
    case hmixins => rw [hps, hqs, nameList_single]
    all_goals rw [hagree _ (by decide)]
  | alternateNames =>
    apply ofPairs_congr (others_of_agree (by decide) hagree)
    case hnames => rw [hps, hqs, nameList_single]
    all_goals rw [hagree _ (by decide)]

/-- The bare name of a parameter is read like one in a mapping if there is nothing to trim, and only
then. -/
lemma ofPairs_namedParam_iff (hagree : ∀ n ≠ "params", fieldOf qs n = fieldOf ps n)
    (hps : fieldOf ps "params" = .list (xs ++ .text s :: ys))
    (hqs : fieldOf qs "params" = .list (xs ++ namedParam s :: ys)) :
    ofPairs qs file index = ofPairs ps file index ↔
      trim s = s ∨ ∃ fault, ofPairs ps file index = .error fault := by
  have hshort : Param.ofList (fieldOf ps "params") = (xs ++ .text s :: ys).mapM Param.ofValue := by
    rw [hps, Param.ofList_list (by simp)]
  have hlong : Param.ofList (fieldOf qs "params") = (xs ++ namedParam s :: ys).mapM Param.ofValue := by
    rw [hqs, Param.ofList_list (by simp)]
  have hothers := others_of_agree (by decide) hagree
  have hmap : ofPairs qs file index =
      (fun f => { f with params := f.params.set xs.length { name := trim s } }) <$>
        ofPairs ps file index := by
    apply ofPairs_eq_map (g := (·.set xs.length { name := trim s })) (k := id) hothers
    case hparams => rw [hlong, hshort, mapM_replace (Param.ofValue_text s) (Param.ofValue_namedParam s)]
    all_goals rw [hagree _ (by decide)]
    rw [id_map]
  apply eq_iff_of_eq_map hmap
  · intro htrim
    have hsame : Param.ofValue (namedParam s) = Param.ofValue (.text s) := by
      rw [Param.ofValue_namedParam, Param.ofValue_text, htrim]
    apply ofPairs_congr hothers
    case hparams => rw [hlong, hshort, mapM_replace_of_eq hsame]
    all_goals rw [hagree _ (by decide)]
  · intro f hf hf'
    have hname := eq_of_mapM_replace (hshort ▸ (parts_of_ofPairs hf).1) (hlong ▸ (parts_of_ofPairs hf').1)
    rw [Param.ofValue_text, Param.ofValue_namedParam] at hname
    simpa using hname.symm

/-- The same holds of the bare name of a value of an enumeration. -/
lemma ofPairs_namedEnumValue_iff (hagree : ∀ n ≠ "enum", fieldOf qs n = fieldOf ps n)
    (hspec : AgreeBut "values" (fieldOf ps "enum") (fieldOf qs "enum"))
    (hps : (fieldOf ps "enum").field "values" = .ok (.list (xs ++ .text s :: ys)))
    (hqs : (fieldOf qs "enum").field "values" = .ok (.list (xs ++ namedEnumValue s :: ys))) :
    ofPairs qs file index = ofPairs ps file index ↔
      trim s = s ∨ ∃ fault, ofPairs ps file index = .error fault := by
  have hreplace := EnumSpec.ofValue_replace hspec hps hqs (EnumValue.ofValue_text s)
    (EnumValue.ofValue_namedEnumValue s)
  have hothers := others_of_agree (by decide) hagree
  have hmap : ∃ k : Option EnumSpec → Option EnumSpec, ofPairs qs file index =
      (fun f => { f with enumeration := k f.enumeration }) <$> ofPairs ps file index := by
    refine ⟨_, ofPairs_eq_map (g := id) hothers ?_ ?_ ?_ ?_ hreplace⟩
    all_goals rw [hagree _ (by decide)]
    rw [id_map]
  obtain ⟨k, hmap⟩ := hmap
  apply eq_iff_of_eq_map hmap
  · intro htrim
    apply ofPairs_congr hothers
    case henum =>
      apply EnumSpec.ofValue_replace_of_eq hspec hps hqs
      rw [EnumValue.ofValue_namedEnumValue, EnumValue.ofValue_text, htrim]
    all_goals rw [hagree _ (by decide)]
  · intro f hf hf'
    have hname := EnumSpec.eq_of_ofValue_eq hps hqs (parts_of_ofPairs hf).2.2 (parts_of_ofPairs hf').2.2
    rw [EnumValue.ofValue_text, EnumValue.ofValue_namedEnumValue] at hname
    simpa using hname.symm

/-- What is returned, and the names of mixins and alternate names, are read alike in both forms, whatever the
text. The name of a parameter and that of a value of an enumeration are read alike in both forms if and only
if the text has no blanks at its ends; otherwise the two entries are different fragments or none. -/
theorem ofEntry_short_forms (e e' : Value) (file : String) (index : Int) (s : String) :
    (∀ name v, IsLongForm s name v → AgreeBut name e e' → e.field name = .ok (.text s) →
      e'.field name = .ok v → ofEntry e' file index = ofEntry e file index) ∧
    (∀ xs ys, AgreeBut "params" e e' → e.field "params" = .ok (.list (xs ++ .text s :: ys)) →
      e'.field "params" = .ok (.list (xs ++ namedParam s :: ys)) →
      (ofEntry e' file index = ofEntry e file index ↔
        trim s = s ∨ ∃ fault, ofEntry e file index = .error fault)) ∧
    ∀ spec spec' xs ys, AgreeBut "enum" e e' → e.field "enum" = .ok spec → e'.field "enum" = .ok spec' →
      AgreeBut "values" spec spec' → spec.field "values" = .ok (.list (xs ++ .text s :: ys)) →
      spec'.field "values" = .ok (.list (xs ++ namedEnumValue s :: ys)) →
      (ofEntry e' file index = ofEntry e file index ↔
        trim s = s ∨ ∃ fault, ofEntry e file index = .error fault) := by
  refine ⟨fun name v hform h hshort hlong => ?_, fun xs ys h hshort hlong => ?_,
    fun spec spec' xs ys h hshort hlong hspec hvalues hvalues' => ?_⟩
  all_goals
    obtain ⟨ps, qs, hps, hqs, hagree, hfield, hfield'⟩ := h.exists_fields hshort hlong
    rw [ofEntry_of_opened hps, ofEntry_of_opened hqs]
  · exact ofPairs_of_isLongForm hform hagree hfield hfield'
  · exact ofPairs_namedParam_iff hagree hfield hfield'
  · subst hfield hfield'
    exact ofPairs_namedEnumValue_iff hagree hspec hvalues hvalues'

/-- An entry for a method with one more field. -/
def methodWith (name : String) (v : Value) : Value :=
  .map ([(.text "tagname", .text "method"), (.text "name", .text "show")] ++ [(.text name, v)])

lemma field_methodWith (h : name ≠ "tagname") (h' : name ≠ "name") :
    (methodWith name v).field name = .ok v := by
  refine field_eq_ok_iff.2 ⟨_, rfl, ?_⟩
  have hkeys : Scalar.text "tagname" ≠ .text name ∧ Scalar.text "name" ≠ .text name := by
    simp [h.symm, h'.symm]
  simp [hkeys.1, hkeys.2]

/-- A blank before the name of a parameter is kept in the one form and dropped in the other. -/
theorem not_ofEntry_short_forms :
    ¬∀ (e e' : Value) (file : String) (index : Int) (s : String) (xs ys : List Value),
      AgreeBut "params" e e' → e.field "params" = .ok (.list (xs ++ .text s :: ys)) →
      e'.field "params" = .ok (.list (xs ++ namedParam s :: ys)) →
      ofEntry e' file index = ofEntry e file index := by
  intro h
  have hsame := h (methodWith "params" (.list [.text " animate"]))
    (methodWith "params" (.list [namedParam " animate"])) "a.yml" 0 " animate" [] []
    (agreeBut_replace _ _ _ _ _) (field_methodWith (by decide) (by decide))
    (field_methodWith (by decide) (by decide))
  have hshort : ofEntry (methodWith "params" (.list [.text " animate"])) "a.yml" 0 =
      .ok { subject := .member .method, name := "show", params := [{ name := " animate" }],
            file := "a.yml" } := rfl
  have hlong : ofEntry (methodWith "params" (.list [namedParam " animate"])) "a.yml" 0 =
      .ok { subject := .member .method, name := "show", params := [{ name := "animate" }],
            file := "a.yml" } := rfl
  rw [hshort, hlong] at hsame
  simp at hsame

/-- An enumeration of texts with one value. -/
def enumOf (v : Value) : Value := .map ([(.text "type", .text "String")] ++ [(.text "values", .list [v])])

lemma field_enumOf (v : Value) : (enumOf v).field "values" = .ok (.list [v]) :=
  field_eq_ok_iff.2 ⟨_, rfl, by simp⟩

/-- A type with blanks around it is read alike in both forms, the name of a parameter only without them, and
that of a value with a blank differently. -/
theorem ofEntry_short_forms_blank :
    ofEntry (methodWith "return" (.record [("type", .text " this ")])) "a.yml" 0 =
        ofEntry (methodWith "return" (.text " this ")) "a.yml" 0 ∧
      ofEntry (methodWith "params" (.list [namedParam "animate"])) "a.yml" 0 =
        ofEntry (methodWith "params" (.list [.text "animate"])) "a.yml" 0 ∧
      ofEntry (methodWith "enum" (enumOf (namedEnumValue "red "))) "a.yml" 0 ≠
        ofEntry (methodWith "enum" (enumOf (.text "red "))) "a.yml" 0 := by
  refine ⟨?_, ?_, fun heq => ?_⟩
  · exact (ofEntry_short_forms _ _ _ _ " this ").1 _ _ .returns (agreeBut_replace _ _ _ _ _)
      (field_methodWith (by decide) (by decide)) (field_methodWith (by decide) (by decide))
  · refine ((ofEntry_short_forms _ _ _ _ "animate").2.1 [] [] (agreeBut_replace _ _ _ _ _)
      (field_methodWith (by decide) (by decide)) (field_methodWith (by decide) (by decide))).2 (.inl ?_)
    decide
  · obtain htrim | ⟨fault, hfault⟩ := ((ofEntry_short_forms _ _ _ _ "red ").2.2 _ _ [] []
      (agreeBut_replace _ _ _ _ _) (field_methodWith (by decide) (by decide))
      (field_methodWith (by decide) (by decide)) (agreeBut_replace _ _ _ _ _) (field_enumOf _)
      (field_enumOf _)).1 heq
    · exact absurd htrim (by decide)
    · cases hfault

end Fragment

end DocGraph
