import DocGraph.Fragment.Entry
import DocGraph.Proofs.Value.Fields

/-!
# Parts of fragments

A fragment is read part by part, and each part from a field of its own. Entries that are read alike in
every part are one fragment, and entries that differ in the parts with a short form give fragments that
differ in nothing else.
-/

namespace DocGraph

open Value

variable {ps qs : List (Scalar × Value)} {file : String} {index : Int} {e : Value} {f : Fragment}

/-- The fields of an entry with parts that have a short form. -/
def shortFields : List String := ["mixins", "alternateNames", "params", "return", "enum"]

/-- The parameters that the value of a field stands for. -/
def Param.ofList (v : Value) : Except Fault (List Param) := do
  (← v.orEmpty.items).mapM Param.ofValue

lemma Param.bind_ofList {α : Type} (v : Value) (k : List Param → Except Fault α) :
    (v.orEmpty.items >>= fun xs => xs.mapM Param.ofValue >>= k) = ofList v >>= k := by
  rw [ofList, bind_assoc]

namespace Fragment

lemma ofEntry_of_opened (h : e.opened = .map ps) : ofEntry e file index = ofPairs ps file index := by
  rw [ofEntry, pairs?_eq_ok_iff.2 h]
  rfl

/-- Entries that differ at most in parts with a short form give fragments that differ as these parts do. -/
lemma ofPairs_eq_map {g : List Param → List Param} {k : Option EnumSpec → Option EnumSpec}
    (hothers : ∀ n, n ∉ shortFields → fieldOf qs n = fieldOf ps n)
    (hmixins : nameList (fieldOf qs "mixins") = nameList (fieldOf ps "mixins"))
    (hnames : nameList (fieldOf qs "alternateNames") = nameList (fieldOf ps "alternateNames"))
    (hparams : Param.ofList (fieldOf qs "params") = g <$> Param.ofList (fieldOf ps "params"))
    (hreturns : Returns.ofValue (fieldOf qs "return") = Returns.ofValue (fieldOf ps "return"))
    (henum : EnumSpec.ofValue (fieldOf qs "enum") = k <$> EnumSpec.ofValue (fieldOf ps "enum")) :
    ofPairs qs file index =
      (fun f => { f with params := g f.params, enumeration := k f.enumeration }) <$>
        ofPairs ps file index := by
  simp (disch := decide) only [ofPairs, textOf, textOf?, hothers, hmixins, hnames, hreturns, henum,
    Param.bind_ofList, hparams, map_bind, bind_map_left]
  refine bind_congr fun word => bind_congr fun name => ?_
  split
  · rfl
  · split
    · simp only [map_bind]
      -- all parts before the line
      iterate 13 refine bind_congr fun _ => ?_
      split
      · rw [map_bind]
        rfl
      · rfl
    · rfl

/-- Entries of which all parts are read alike are one fragment. -/
lemma ofPairs_congr (hothers : ∀ n, n ∉ shortFields → fieldOf qs n = fieldOf ps n)
    (hmixins : nameList (fieldOf qs "mixins") = nameList (fieldOf ps "mixins"))
    (hnames : nameList (fieldOf qs "alternateNames") = nameList (fieldOf ps "alternateNames"))
    (hparams : Param.ofList (fieldOf qs "params") = Param.ofList (fieldOf ps "params"))
    (hreturns : Returns.ofValue (fieldOf qs "return") = Returns.ofValue (fieldOf ps "return"))
    (henum : EnumSpec.ofValue (fieldOf qs "enum") = EnumSpec.ofValue (fieldOf ps "enum")) :
    ofPairs qs file index = ofPairs ps file index := by
  refine (ofPairs_eq_map (g := id) (k := id) hothers hmixins hnames ?_ hreturns ?_).trans (id_map _)
  · rw [hparams, id_map]
  · rw [henum, id_map]

/-- Parts of a fragment are what their fields are read as. -/
lemma parts_of_ofPairs (h : ofPairs ps file index = .ok f) :
    Param.ofList (fieldOf ps "params") = .ok f.params ∧ textOf? ps "since" = .ok f.since ∧
      EnumSpec.ofValue (fieldOf ps "enum") = .ok f.enumeration := by
  simp only [ofPairs, Param.bind_ofList, bind_eq_ok] at h
  obtain ⟨word, -, name, -, h⟩ := h
  split at h
  · simp at h
  · split at h
    · simp only [bind_eq_ok] at h
      obtain ⟨_, -, _, -, _, -, _, -, _, -, params, hparams, _, -, _, -, _, -, _, -, since, hsince,
        enumeration, henum, _, -, h⟩ := h
      split at h
      all_goals
        obtain ⟨_, -, h⟩ := bind_eq_ok.1 h
        rw [← pure_eq_ok.1 h]
        exact ⟨hparams, hsince, henum⟩
    · simp at h

end Fragment

end DocGraph
