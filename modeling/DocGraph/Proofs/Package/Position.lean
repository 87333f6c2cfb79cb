import DocGraph.PackageTree
import Mathlib.Data.List.Nodup
import Mathlib.Data.List.Perm.Basic
import Mathlib.Tactic.Common

/-!
# Positions in a package tree

A node stands at a position of a tree: inside a row of packages. When a class is placed, the packages of
the row that are there already are used, and the others are made on the way. This adds one leaf and no
other, it never makes a package a second time, and it leaves no package empty.
-/

namespace DocGraph.PackageNode

variable {name n text url icon : String} {w names : List String} {node : PackageNode}
  {nodes held : List PackageNode} {change : List PackageNode → List PackageNode}

/-- What a node holds. -/
def children : PackageNode → List PackageNode
  | .package _ children => children
  | .leaf _ _ _ => []

/-- A node with the names of the packages around it, from the outermost to the innermost. -/
structure Position where
  around : List String
  node : PackageNode

namespace Position

/-- The texts from that of the outermost package to that of the node. Packages show their short names. -/
def texts (p : Position) : List String := p.around.map Name.short ++ [p.node.text]

/-- The texts with dots between them. -/
def path (p : Position) : String := ".".intercalate p.texts

/-- The same position as seen from outside a package. -/
def inside (name : String) (p : Position) : Position := ⟨name :: p.around, p.node⟩

/-- The names of the packages around a node, and its own name if it is a package. -/
def way (p : Position) : List String :=
  match p.node with
  | .package name _ => p.around ++ [name]
  | .leaf _ _ _ => p.around

@[simp] lemma node_inside (name : String) (p : Position) : (p.inside name).node = p.node := rfl

@[simp] lemma way_package (around : List String) (name : String) (held : List PackageNode) :
    way ⟨around, .package name held⟩ = around ++ [name] := rfl

@[simp] lemma way_inside (name : String) (p : Position) : (p.inside name).way = name :: p.way := by
  unfold way inside
  cases p.node <;> rfl

end Position

mutual

/-- The positions at and inside a node. -/
def positions : PackageNode → List Position
  | .package name children =>
    ⟨[], .package name children⟩ :: (positionsList children).map (Position.inside name)
  | .leaf text url icon => [⟨[], .leaf text url icon⟩]

/-- The positions at and inside nodes. -/
def positionsList : List PackageNode → List Position
  | [] => []
  | node :: nodes => node.positions ++ positionsList nodes

end

/-- The positions of the classes. -/
def leavesIn (nodes : List PackageNode) : List Position :=
  (positionsList nodes).filter (·.node.isLeaf)

/-- The positions of the packages. -/
def packagesIn (nodes : List PackageNode) : List Position :=
  (positionsList nodes).filter (!·.node.isLeaf)

/-- The ways to the packages. -/
def waysIn (nodes : List PackageNode) : List (List String) := (packagesIn nodes).map Position.way

/-- No package is empty. -/
def Full (nodes : List PackageNode) : Prop := ∀ p ∈ packagesIn nodes, p.node.children ≠ []

/-! ### Equations -/

lemma positionsList_eq_flatMap (nodes : List PackageNode) :
    positionsList nodes = nodes.flatMap positions := by
  induction nodes with
  | nil => rfl
  | cons node nodes ih => rw [positionsList, ih, List.flatMap_cons]

@[simp] lemma leavesIn_nil : leavesIn [] = [] := rfl

@[simp] lemma leavesIn_package_cons : leavesIn (.package name held :: nodes) =
    (leavesIn held).map (Position.inside name) ++ leavesIn nodes := by
  simp [leavesIn, positionsList, positions, isLeaf, List.filter_map, Function.comp_def]

@[simp] lemma leavesIn_leaf_cons : leavesIn (.leaf text url icon :: nodes) =
    ⟨[], .leaf text url icon⟩ :: leavesIn nodes := by
  simp [leavesIn, positionsList, positions, isLeaf]

lemma leavesIn_append (nodes nodes' : List PackageNode) :
    leavesIn (nodes ++ nodes') = leavesIn nodes ++ leavesIn nodes' := by
  simp [leavesIn, positionsList_eq_flatMap]

@[simp] lemma packagesIn_nil : packagesIn [] = [] := rfl

@[simp] lemma packagesIn_package_cons : packagesIn (.package name held :: nodes) =
    ⟨[], .package name held⟩ :: (packagesIn held).map (Position.inside name) ++
      packagesIn nodes := by
  simp [packagesIn, positionsList, positions, isLeaf, List.filter_map, Function.comp_def]

@[simp] lemma packagesIn_leaf_cons :
    packagesIn (.leaf text url icon :: nodes) = packagesIn nodes := by
  simp [packagesIn, positionsList, positions, isLeaf]

lemma packagesIn_append (nodes nodes' : List PackageNode) :
    packagesIn (nodes ++ nodes') = packagesIn nodes ++ packagesIn nodes' := by
  simp [packagesIn, positionsList_eq_flatMap]

@[simp] lemma waysIn_nil : waysIn [] = [] := rfl

@[simp] lemma waysIn_package_cons : waysIn (.package name held :: nodes) =
    [name] :: (waysIn held).map (name :: ·) ++ waysIn nodes := by
  simp [waysIn, Function.comp_def]

@[simp] lemma waysIn_leaf_cons : waysIn (.leaf text url icon :: nodes) = waysIn nodes := by
  simp [waysIn]

lemma waysIn_append (nodes nodes' : List PackageNode) :
    waysIn (nodes ++ nodes') = waysIn nodes ++ waysIn nodes' := by
  simp [waysIn, packagesIn_append]

lemma map_path_packagesIn (nodes : List PackageNode) : (packagesIn nodes).map Position.path =
    (waysIn nodes).map fun w => ".".intercalate (w.map Name.short) := by
  rw [waysIn, List.map_map]
  refine List.map_congr_left fun p hp => ?_
  obtain ⟨around, node⟩ := p
  cases node with
  | package name held => simp [Position.path, Position.texts, text]
  | leaf text url icon => simp [packagesIn, isLeaf] at hp

lemma full_nil : Full [] := by simp [Full]

@[simp] lemma full_package_cons :
    Full (.package name held :: nodes) ↔ held ≠ [] ∧ Full held ∧ Full nodes := by
  simp [Full, children, or_imp, forall_and]

@[simp] lemma full_leaf_cons : Full (.leaf text url icon :: nodes) ↔ Full nodes := by
  simp [Full]

lemma exists_eq_leaf (h : ∀ name held, node ≠ .package name held) :
    ∃ text url icon, node = .leaf text url icon := by
  cases node with
  | package name held => exact absurd rfl (h name held)
  | leaf text url icon => exact ⟨text, url, icon, rfl⟩

/-! ### Leaves of a changed tree -/

lemma perm_leavesIn_inPackage {extra : List Position}
    (h : ∀ held, (leavesIn (change held)).Perm (leavesIn held ++ extra))
    (nodes : List PackageNode) :
    (leavesIn (inPackage name change nodes)).Perm
      (leavesIn nodes ++ extra.map (Position.inside name)) := by
  fun_induction inPackage name change nodes with
  | case1 => simpa using (h []).map (Position.inside name)
  | case2 held nodes =>
    have := ((h held).map (Position.inside name)).append_right (leavesIn nodes)
    simp only [leavesIn_package_cons, List.append_assoc, List.map_append] at this ⊢
    -- what is new stands before the leaves of the nodes that follow
    exact this.trans (List.perm_append_comm.append_left _)
  | case3 n held nodes hn ih =>
    simpa using ih.append_left _
  | case4 node nodes hnode ih =>
    obtain ⟨text, url, icon, rfl⟩ := exists_eq_leaf hnode
    simpa using ih

/-- Placing a class adds its leaf inside the packages given for it, and no other. -/
theorem perm_leavesIn_place (text url icon : String) (names : List String)
    (nodes : List PackageNode) :
    (leavesIn (place (.leaf text url icon) names nodes)).Perm
      (leavesIn nodes ++ [⟨names, .leaf text url icon⟩]) := by
  induction names generalizing nodes with
  | nil => simp [place, leavesIn_append]
  | cons name names ih => exact perm_leavesIn_inPackage ih nodes

/-! ### Packages of a changed tree -/

lemma nil_notMem_waysIn (nodes : List PackageNode) : [] ∉ waysIn nodes := by
  induction nodes with
  | nil => simp
  | cons node nodes ih => cases node <;> simp [ih]

/-- The way to a package inside another one passes the other one. -/
lemma singleton_mem_waysIn (h : n :: w ∈ waysIn nodes) : [n] ∈ waysIn nodes := by
  induction nodes with
  | nil => simp at h
  | cons node nodes ih =>
    cases node with
    | package name held =>
      simp only [waysIn_package_cons, List.cons_append, List.mem_cons, List.mem_append,
        List.mem_map] at h ⊢
      rcases h with h | ⟨v, -, h⟩ | h
      · exact .inl (by rw [List.head_eq_of_cons_eq h])
      · exact .inl (by rw [List.head_eq_of_cons_eq h])
      · exact .inr (.inr (ih h))
    | leaf text url icon =>
      rw [waysIn_leaf_cons] at h ⊢
      exact ih h

lemma nodup_waysIn_package_cons : (waysIn (.package name held :: nodes)).Nodup ↔
    (waysIn held).Nodup ∧ [name] ∉ waysIn nodes ∧ (waysIn nodes).Nodup := by
  have hinj : Function.Injective (name :: · : List String → List String) := List.cons_injective
  rw [waysIn_package_cons, List.cons_append, List.nodup_cons, List.nodup_append,
    List.nodup_map_iff hinj, List.mem_append, not_or]
  constructor
  · rintro ⟨⟨-, hname⟩, hheld, hnodes, -⟩
    exact ⟨hheld, hname, hnodes⟩
  · rintro ⟨hheld, hname, hnodes⟩
    refine ⟨⟨by simp [nil_notMem_waysIn], hname⟩, hheld, hnodes, ?_⟩
    simp only [List.mem_map, forall_exists_index, and_imp]
    rintro _ w - rfl _ hw rfl
    exact hname (singleton_mem_waysIn hw)

/-- Changing what a package holds makes ways to this package, and inside it, only. -/
lemma mem_waysIn_inPackage (hw : w ∈ waysIn (inPackage name change nodes)) :
    w ∈ waysIn nodes ∨ w = [name] ∨ ∃ held v, w = name :: v ∧ v ∈ waysIn (change held) ∧
      ∀ u ∈ waysIn held, name :: u ∈ waysIn nodes := by
  fun_induction inPackage name change nodes with
  | case1 =>
    simp only [waysIn_package_cons, waysIn_nil, List.append_nil, List.mem_cons, List.mem_map] at hw
    rcases hw with rfl | ⟨v, hv, rfl⟩
    · exact .inr (.inl rfl)
    · exact .inr (.inr ⟨[], v, rfl, hv, by simp⟩)
  | case2 held nodes =>
    simp only [waysIn_package_cons, List.cons_append, List.mem_cons, List.mem_append,
      List.mem_map] at hw
    rcases hw with rfl | ⟨v, hv, rfl⟩ | hw
    · exact .inr (.inl rfl)
    · exact .inr (.inr ⟨held, v, rfl, hv, by simp +contextual⟩)
    · exact .inl (by simp [hw])
  | case3 n held nodes hn ih =>
    simp only [waysIn_package_cons, List.mem_append] at hw ⊢
    rcases hw with hw | hw
    · exact .inl (.inl hw)
    · rcases ih hw with hw | hw | ⟨held, v, heq, hv, hold⟩
      · exact .inl (.inr hw)
      · exact .inr (.inl hw)
      · exact .inr (.inr ⟨held, v, heq, hv, fun u hu => .inr (hold u hu)⟩)
  | case4 node nodes hnode ih =>
    obtain ⟨text, url, icon, rfl⟩ := exists_eq_leaf hnode
    simpa using ih hw

/-- The packages that are made for a class are those given for it. -/
theorem mem_waysIn_place (hw : w ∈ waysIn (place (.leaf text url icon) names nodes)) :
    w ∈ waysIn nodes ∨ w <+: names := by
  induction names generalizing nodes w with
  | nil =>
    left
    simpa [place, waysIn_append] using hw
  | cons name names ih =>
    rcases mem_waysIn_inPackage hw with hw | rfl | ⟨held, v, rfl, hv, hold⟩
    · exact .inl hw
    · exact .inr (by simp)
    · exact (ih hv).imp (hold v) (by simp)

lemma nodup_waysIn_inPackage (h : ∀ held, (waysIn held).Nodup → (waysIn (change held)).Nodup)
    (hn : (waysIn nodes).Nodup) : (waysIn (inPackage name change nodes)).Nodup := by
  fun_induction inPackage name change nodes with
  | case1 => exact nodup_waysIn_package_cons.2 ⟨h [] (by simp), by simp, by simp⟩
  | case2 held nodes =>
    rw [nodup_waysIn_package_cons] at hn ⊢
    exact ⟨h held hn.1, hn.2⟩
  | case3 n held nodes hne ih =>
    rw [nodup_waysIn_package_cons] at hn ⊢
    obtain ⟨hheld, hnot, hnodes⟩ := hn
    refine ⟨hheld, fun hmem => ?_, ih hnodes⟩
    rcases mem_waysIn_inPackage hmem with hmem | heq | ⟨_, v, heq, -⟩
    · exact hnot hmem
    · exact hne (List.head_eq_of_cons_eq heq)
    · exact hne (List.head_eq_of_cons_eq heq)
  | case4 node nodes hnode ih =>
    obtain ⟨text, url, icon, rfl⟩ := exists_eq_leaf hnode
    exact ih hn

/-- No package is made twice. -/
theorem nodup_waysIn_place (hn : (waysIn nodes).Nodup) :
    (waysIn (place (.leaf text url icon) names nodes)).Nodup := by
  induction names generalizing nodes with
  | nil => simpa [place, waysIn_append] using hn
  | cons name names ih => exact nodup_waysIn_inPackage (fun _ => ih) hn

lemma inPackage_ne_nil (name : String) (change : List PackageNode → List PackageNode)
    (nodes : List PackageNode) : inPackage name change nodes ≠ [] := by
  fun_cases inPackage name change nodes <;> simp

lemma full_inPackage (h : ∀ held, Full held → change held ≠ [] ∧ Full (change held))
    (hf : Full nodes) : Full (inPackage name change nodes) := by
  fun_induction inPackage name change nodes with
  | case1 => simpa [full_nil] using h [] full_nil
  | case2 held nodes =>
    obtain ⟨-, hheld, hnodes⟩ := full_package_cons.1 hf
    exact full_package_cons.2 ⟨(h held hheld).1, (h held hheld).2, hnodes⟩
  | case3 n held nodes hne ih =>
    obtain ⟨hne, hheld, hnodes⟩ := full_package_cons.1 hf
    exact full_package_cons.2 ⟨hne, hheld, ih hnodes⟩
  | case4 node nodes hnode ih =>
    obtain ⟨text, url, icon, rfl⟩ := exists_eq_leaf hnode
    exact full_leaf_cons.2 (ih (full_leaf_cons.1 hf))

lemma place_ne_nil (node : PackageNode) (names : List String) (nodes : List PackageNode) :
    place node names nodes ≠ [] := by
  cases names with
  | nil => simp [place]
  | cons name names => exact inPackage_ne_nil _ _ _

/-- The packages that are made for a class hold something. -/
theorem full_place (hf : Full nodes) : Full (place (.leaf text url icon) names nodes) := by
  induction names generalizing nodes with
  | nil => simpa [place, Full, packagesIn_append] using hf
  | cons name names ih => exact full_inPackage (fun held hf => ⟨place_ne_nil _ _ _, ih hf⟩) hf

end DocGraph.PackageNode
