import DocGraph.Proofs.Package.Position
import DocGraph.Proofs.Package.Segments
import Mathlib.Data.List.Sort

/-!
# The package tree as an index

Placing the classes one after another keeps an account: the leaves are those of the classes, the packages
are packages around classes, none of them made twice and none of them empty. Putting the tree in order
keeps the positions, and it only moves about what the packages hold.

Main statement: the texts on the way to a leaf give the full name of its class. There is one leaf for each
class, and no two packages have the same texts on the way to them.
-/

namespace DocGraph

namespace PackageNode

variable {nodes : List PackageNode}

/-! ### Order -/

/-- Packages stand before classes, and both stand in the order of their texts in small letters. -/
def Precedes (a b : PackageNode) : Prop :=
  (a.isLeaf → b.isLeaf) ∧ (a.isLeaf = b.isLeaf → Text.lower a.text ≤ Text.lower b.text)

lemma atMost_iff (a b : PackageNode) : a.atMost b = true ↔ a.Precedes b := by
  unfold atMost Precedes
  cases ha : a.isLeaf <;> cases hb : b.isLeaf <;> simp

lemma Precedes.trans {a b c : PackageNode} (hab : a.Precedes b) (hbc : b.Precedes c) :
    a.Precedes c := by
  refine ⟨hbc.1 ∘ hab.1, fun hac => ?_⟩
  have hb : a.isLeaf = b.isLeaf := by
    have := hab.1
    have := hbc.1
    cases ha : a.isLeaf <;> cases hb : b.isLeaf <;> simp_all
  exact String.le_trans (hab.2 hb) (hbc.2 (hb ▸ hac))

lemma precedes_total (a b : PackageNode) : a.Precedes b ∨ b.Precedes a := by
  unfold Precedes
  have := String.le_total (Text.lower a.text) (Text.lower b.text)
  cases ha : a.isLeaf <;> cases hb : b.isLeaf <;> simp_all

lemma pairwise_mergeSort_atMost (nodes : List PackageNode) :
    (nodes.mergeSort atMost).Pairwise Precedes := by
  refine (List.pairwise_mergeSort ?_ ?_ nodes).imp (atMost_iff _ _).1
  · intro a b c hab hbc
    exact (atMost_iff a c).2 (((atMost_iff a b).1 hab).trans ((atMost_iff b c).1 hbc))
  · intro a b
    simpa [atMost_iff] using precedes_total a b

/-! ### Trees in order -/

@[simp] lemma isLeaf_sorted (node : PackageNode) : node.sorted.isLeaf = node.isLeaf := by
  cases node <;> simp [sorted, isLeaf]

@[simp] lemma text_sorted (node : PackageNode) : node.sorted.text = node.text := by
  cases node <;> simp [sorted, text]

lemma children_sorted (node : PackageNode) :
    node.sorted.children = (sortedList node.children).mergeSort atMost := by
  cases node <;> simp [sorted, sortedList, children]

lemma pairwise_children_sorted (node : PackageNode) : node.sorted.children.Pairwise Precedes := by
  rw [children_sorted]
  exact pairwise_mergeSort_atMost _

lemma length_sortedList (nodes : List PackageNode) : (sortedList nodes).length = nodes.length := by
  induction nodes with
  | nil => rw [sortedList]
  | cons node nodes ih => simp [sortedList, ih]

/-- The same position when everything is in order. -/
def Position.sorted (p : Position) : Position := ⟨p.around, p.node.sorted⟩

@[simp] lemma Position.node_sorted (p : Position) : p.sorted.node = p.node.sorted := rfl

@[simp] lemma Position.path_sorted (p : Position) : p.sorted.path = p.path := by
  simp [path, texts, sorted]

lemma perm_positionsList_mergeSort (nodes : List PackageNode) :
    (positionsList (nodes.mergeSort atMost)).Perm (positionsList nodes) := by
  rw [positionsList_eq_flatMap, positionsList_eq_flatMap]
  exact (List.mergeSort_perm nodes atMost).flatMap_right positions

mutual

lemma perm_positions_sorted :
    ∀ node : PackageNode, node.sorted.positions.Perm (node.positions.map Position.sorted)
  | .package name held => by
    have h := (perm_positionsList_mergeSort (sortedList held)).trans
      (perm_positionsList_sortedList held)
    simpa [sorted, positions, Position.sorted, Position.inside, Function.comp_def]
      using h.map (Position.inside name)
  | .leaf text url icon => by simp [sorted, positions, Position.sorted]

lemma perm_positionsList_sortedList : ∀ nodes : List PackageNode,
    (positionsList (sortedList nodes)).Perm ((positionsList nodes).map Position.sorted)
  | [] => by simp [sortedList, positionsList]
  | node :: nodes => by
    simpa [sortedList, positionsList]
      using (perm_positions_sorted node).append (perm_positionsList_sortedList nodes)

end

/-- Nodes in order, with everything inside them in order. -/
def inOrder (nodes : List PackageNode) : List PackageNode := (sortedList nodes).mergeSort atMost

lemma perm_positionsList_inOrder (nodes : List PackageNode) :
    (positionsList (inOrder nodes)).Perm ((positionsList nodes).map Position.sorted) :=
  (perm_positionsList_mergeSort _).trans (perm_positionsList_sortedList nodes)

lemma perm_leavesIn_inOrder (nodes : List PackageNode) :
    (leavesIn (inOrder nodes)).Perm ((leavesIn nodes).map Position.sorted) := by
  have h := (perm_positionsList_inOrder nodes).filter (·.node.isLeaf)
  simpa [leavesIn, List.filter_map, Function.comp_def] using h

lemma perm_packagesIn_inOrder (nodes : List PackageNode) :
    (packagesIn (inOrder nodes)).Perm ((packagesIn nodes).map Position.sorted) := by
  have h := (perm_positionsList_inOrder nodes).filter (!·.node.isLeaf)
  simpa [packagesIn, List.filter_map, Function.comp_def] using h

lemma exists_of_mem_packagesIn_inOrder {p : Position} (h : p ∈ packagesIn (inOrder nodes)) :
    ∃ q ∈ packagesIn nodes, q.sorted = p :=
  List.mem_map.1 ((perm_packagesIn_inOrder nodes).mem_iff.1 h)

lemma Full.inOrder (h : Full nodes) : Full (inOrder nodes) := by
  intro p hp
  obtain ⟨q, hq, rfl⟩ := exists_of_mem_packagesIn_inOrder hp
  have := h q hq
  rw [← List.length_pos_iff] at this ⊢
  simpa [children_sorted, length_sortedList] using this

lemma pairwise_children_of_mem_inOrder {p : Position} (h : p ∈ packagesIn (inOrder nodes)) :
    p.node.children.Pairwise Precedes := by
  obtain ⟨q, -, rfl⟩ := exists_of_mem_packagesIn_inOrder h
  exact pairwise_children_sorted q.node

lemma perm_map_path_inOrder (nodes : List PackageNode) :
    ((packagesIn (inOrder nodes)).map Position.path).Perm ((packagesIn nodes).map Position.path) := by
  simpa [Function.comp_def] using (perm_packagesIn_inOrder nodes).map Position.path

end PackageNode

namespace PackageTree

open PackageNode

variable {apiRoot : String} {icons : List (String × String)} {es : List PackageEntry}
  {e : PackageEntry} {nodes : List PackageNode}

/-- The nodes account for the classes that have been placed, before they are put in order. -/
structure Indexes (apiRoot : String) (icons : List (String × String)) (es : List PackageEntry)
    (nodes : List PackageNode) : Prop where
  leaves : (leavesIn nodes).Perm
    (es.map fun e => ⟨Name.packages e.name, leafOf apiRoot icons e⟩)
  ways : ∀ w ∈ waysIn nodes, ∃ e ∈ es, w <+: Name.packages e.name
  nodup : (waysIn nodes).Nodup
  full : Full nodes

namespace Indexes

lemma nil : Indexes apiRoot icons [] [] :=
  ⟨by simp, by simp, by simp, full_nil⟩

lemma place (h : Indexes apiRoot icons es nodes) (e : PackageEntry) :
    Indexes apiRoot icons (es ++ [e])
      (PackageNode.place (leafOf apiRoot icons e) (Name.packages e.name) nodes) where
  leaves := by
    rw [List.map_append]
    exact (perm_leavesIn_place _ _ _ _ nodes).trans (h.leaves.append_right _)
  ways w hw := by
    rcases mem_waysIn_place hw with hw | hw
    · obtain ⟨e', he', hw⟩ := h.ways w hw
      exact ⟨e', List.mem_append_left _ he', hw⟩
    · exact ⟨e, by simp, hw⟩
  nodup := nodup_waysIn_place h.nodup
  full := full_place h.full

lemma foldl (es' : List PackageEntry) (h : Indexes apiRoot icons es nodes) :
    Indexes apiRoot icons (es ++ es') (es'.foldl (fun nodes e =>
      PackageNode.place (leafOf apiRoot icons e) (Name.packages e.name) nodes) nodes) := by
  induction es' generalizing es nodes with
  | nil => simpa using h
  | cons e es' ih => simpa using ih (h.place e)

end Indexes

lemma exists_eq_inOrder (apiRoot : String) (icons : List (String × String))
    (es : List PackageEntry) :
    ∃ nodes, Indexes apiRoot icons es nodes ∧ build apiRoot icons es = inOrder nodes :=
  ⟨_, by simpa using Indexes.nil.foldl es, rfl⟩

namespace Indexes

lemma exists_eq_packages_append (hdot : ∀ e ∈ es, e.name.toList.head? ≠ some '.')
    (h : Indexes apiRoot icons es nodes) {w : List String} (hw : w ∈ waysIn nodes) :
    ∃ n : String, n.toList.head? ≠ some '.' ∧ w = Name.packages n ++ [n] := by
  obtain ⟨e, he, hpre⟩ := h.ways w hw
  have hne : w ≠ [] := fun hnil => nil_notMem_waysIn nodes (hnil ▸ hw)
  exact Name.eq_packages_append_of_prefix (hdot e he) hne hpre

/-- The texts on the way to a package tell it from all others. -/
lemma nodup_map_path (hdot : ∀ e ∈ es, e.name.toList.head? ≠ some '.')
    (h : Indexes apiRoot icons es nodes) : ((packagesIn nodes).map Position.path).Nodup := by
  rw [map_path_packagesIn]
  -- Each way is the way to some name, and the texts on it give this name back.
  refine h.nodup.map_on fun w hw w' hw' heq => ?_
  obtain ⟨n, hn, rfl⟩ := h.exists_eq_packages_append hdot hw
  obtain ⟨n', hn', rfl⟩ := h.exists_eq_packages_append hdot hw'
  rw [Name.intercalate_packages hn, Name.intercalate_packages hn'] at heq
  rw [heq]

/-- The texts on the way to a leaf give the full name of its class. -/
lemma perm_map_leavesIn (hdot : ∀ e ∈ es, e.name.toList.head? ≠ some '.')
    (h : Indexes apiRoot icons es nodes) :
    ((leavesIn (inOrder nodes)).map fun p => (p.path, p.node)).Perm
      (es.map fun e => (e.name, leafOf apiRoot icons e)) := by
  refine (((perm_leavesIn_inOrder nodes).trans (h.leaves.map _)).map _).trans ?_
  rw [List.map_map, List.map_map]
  -- Leaves hold nothing, so that putting them in order leaves them alone.
  refine .of_eq (List.map_congr_left fun e he => ?_)
  have hpath := Name.intercalate_packages (hdot e he)
  rw [List.map_append, List.map_singleton] at hpath
  simpa [Position.path, Position.texts, Position.sorted, leafOf, text, sorted] using hpath

end Indexes

/-- A package tree has one leaf for each class, at a path that gives the full name of the class, and no
other leaf. No package is empty, no two packages have the same path, and everything is in order. -/
theorem build_indexes_classes (apiRoot : String) (icons : List (String × String))
    (es : List PackageEntry) (hdot : ∀ e ∈ es, e.name.toList.head? ≠ some '.') :
    ((leavesIn (build apiRoot icons es)).map fun p => (p.path, p.node)).Perm
      (es.map fun e => (e.name,
        .leaf (Name.short e.name) (apiRoot ++ "/" ++ e.name) (iconOf icons e))) ∧
    (∀ p ∈ packagesIn (build apiRoot icons es), p.node.children ≠ []) ∧
    ((packagesIn (build apiRoot icons es)).map Position.path).Nodup ∧
    (build apiRoot icons es).Pairwise Precedes ∧
    ∀ p ∈ packagesIn (build apiRoot icons es), p.node.children.Pairwise Precedes := by
  obtain ⟨nodes, h, heq⟩ := exists_eq_inOrder apiRoot icons es
  rw [heq]
  exact ⟨h.perm_map_leavesIn hdot, h.full.inOrder,
    (perm_map_path_inOrder nodes).nodup_iff.2 (h.nodup_map_path hdot),
    pairwise_mergeSort_atMost _, fun p => pairwise_children_of_mem_inOrder⟩

/-- A package beside a class of the same name, one with an empty short name, one that differs from another
one in capital letters only, and a class with an empty last segment. -/
def shelf : List PackageEntry :=
  [⟨"Ext.form.Panel.Item", false⟩, ⟨"Ext.form", true⟩, ⟨"Ext", false⟩, ⟨"ext.Util.", false⟩,
    ⟨"a..B.b", false⟩]

theorem build_indexes_classes_shelf :
    ((leavesIn (build "/api" [("Ext", "icon-core")] shelf)).map fun p => (p.path, p.node)).Perm
      [("Ext.form.Panel.Item", .leaf "Panel.Item" "/api/Ext.form.Panel.Item" "icon-class"),
        ("Ext.form", .leaf "form" "/api/Ext.form" "icon-singleton"),
        ("Ext", .leaf "Ext" "/api/Ext" "icon-core"),
        ("ext.Util.", .leaf "Util." "/api/ext.Util." "icon-class"),
        ("a..B.b", .leaf "B.b" "/api/a..B.b" "icon-class")] ∧
    ((packagesIn (build "/api" [("Ext", "icon-core")] shelf)).map Position.path).Perm
      ["Ext", "Ext.form", "ext", "a", "a."] ∧
    ((packagesIn (build "/api" [("Ext", "icon-core")] shelf)).map Position.path).Nodup ∧
    (build "/api" [("Ext", "icon-core")] shelf).Pairwise Precedes := by
  have hdot : ∀ e ∈ shelf, e.name.toList.head? ≠ some '.' := by decide +kernel
  obtain ⟨hleaves, -, hnodup, hroot, -⟩ :=
    build_indexes_classes "/api" [("Ext", "icon-core")] shelf hdot
  exact ⟨hleaves, (perm_map_path_inOrder _).trans (.of_eq (by decide +kernel)), hnodup, hroot⟩

end PackageTree

end DocGraph
