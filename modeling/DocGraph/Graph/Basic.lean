import DocGraph.Graph.Member

/-!
# Class graphs

Classes by name, with parents and mixins as edges. A name may be the full name of a class or one of
its alternate names; the full name comes first, and among classes that share an alternate name, the
first one. Names of classes that are not in the graph are *stubs*: those that are registered as
external, and the unresolved ones. Edges can be cut, after which they are not followed any more.
-/

namespace DocGraph

/-- A graph of classes. No two classes share a full name. -/
structure ClassGraph where
  classes : List DocClass
  /-- Names registered as external. -/
  registered : List String := []
  /-- Names registered as external that are no texts; no class can refer to them. -/
  registeredOther : List Scalar := []
  /-- The classes whose parents are cut off. -/
  cutParents : List String := []
  /-- The cut edges from classes to mixins. -/
  cutMixins : List (String × String) := []
  distinct : (classes.map DocClass.name).Nodup

namespace ClassGraph

/-- The first name in a list that occurs again before it. -/
def firstRepeated (seen : List String) : List String → Option String
  | [] => none
  | n :: ns => if n ∈ seen then some n else firstRepeated (n :: seen) ns

theorem nodup_of_firstRepeated {seen ns : List String} (h : firstRepeated seen ns = none) :
    ns.Nodup ∧ ∀ n ∈ ns, n ∉ seen := by
  induction ns generalizing seen with
  | nil => simp
  | cons n ns ih =>
    by_cases hn : n ∈ seen
    · simp [firstRepeated, hn] at h
    · simp only [firstRepeated, hn, if_false] at h
      obtain ⟨hd, hs⟩ := ih h
      refine ⟨List.nodup_cons.2 ⟨fun hm => hs n hm (List.mem_cons_self ..), hd⟩, ?_⟩
      intro m hm
      rcases List.mem_cons.1 hm with rfl | hm
      · exact hn
      · exact fun hseen => hs m hm (List.mem_cons_of_mem _ hseen)

/-- The graph of some classes, or the first full name that two of them share. -/
def ofClasses (classes : List DocClass) (registered : List String)
    (registeredOther : List Scalar := []) : Except String ClassGraph :=
  match h : firstRepeated [] (classes.map DocClass.name) with
  | some n => .error n
  | none => .ok { classes, registered, registeredOther, distinct := (nodup_of_firstRepeated h).1 }

/-! ### Names -/

/-- The full names of the classes. -/
def names (g : ClassGraph) : List String := g.classes.map DocClass.name

/-- The full names in rising order. -/
def sortedNames (g : ClassGraph) : List String := Catalog.inOrder g.names

/-- The class with a full or alternate name. -/
def find? (g : ClassGraph) (n : String) : Option DocClass :=
  (g.classes.find? (·.name = n)).or (g.classes.find? (n ∈ ·.alternateNames))

/-- The full name of the class with the given name; the name itself if there is no such class. -/
def canonical (g : ClassGraph) (n : String) : String := ((g.find? n).map DocClass.name).getD n

/-- Whether a name is that of a class or registered as external. -/
def isKnown (g : ClassGraph) (n : String) : Bool := (g.find? n).isSome || g.registered.contains n

/-- The external names that are not full names of classes, each once. -/
def external (g : ClassGraph) : List String :=
  appendNew [] (g.registered.filter fun n => !g.names.contains n)

/-- The names that classes refer to and that are not known, each once. -/
def unresolved (g : ClassGraph) : List String :=
  appendNew [] ((g.classes.flatMap DocClass.references).filter fun n => !g.isKnown n)

/-- Whether a name stands for a class outside the graph. -/
def isStub (g : ClassGraph) (n : String) : Bool :=
  g.external.contains n || g.unresolved.contains n

/-! ### Edges -/

/-- The parent of a class, under its full name if it is in the graph. -/
def parentOf (g : ClassGraph) (n : String) : Option String := do
  let c ← g.find? n
  if c.name ∈ g.cutParents then none else c.parent.map g.canonical

/-- The mixins of a class in the order of their declaration, under their full names if they are in the
graph, each once. -/
def mixinsOf (g : ClassGraph) (n : String) : List String :=
  match g.find? n with
  | none => []
  | some c => appendNew [] ((c.mixins.map g.canonical).filter fun m => (c.name, m) ∉ g.cutMixins)

/-- The classes whose parent is the given one. -/
def subclasses (g : ClassGraph) (n : String) : List DocClass :=
  g.classes.filter fun c => g.parentOf c.name = some (g.canonical n)

/-- The classes that have the given one as a mixin. -/
def mixedInto (g : ClassGraph) (n : String) : List DocClass :=
  g.classes.filter fun c => g.canonical n ∈ g.mixinsOf c.name

/-- Cut a class off from its parent. -/
def cutParent (g : ClassGraph) (n : String) : ClassGraph :=
  { g with cutParents := if n ∈ g.cutParents then g.cutParents else g.cutParents ++ [n] }

/-- Cut a mixin off from a class. -/
def cutMixin (g : ClassGraph) (n mixin : String) : ClassGraph :=
  { g with
    cutMixins := if (n, mixin) ∈ g.cutMixins then g.cutMixins else g.cutMixins ++ [(n, mixin)] }

/-! ### Members -/

/-- The member of the given key of the class with the given name. -/
def member? (g : ClassGraph) (n : String) (key : MemberKey) : Option Member :=
  (g.find? n).bind (·.member? key)

/-- The member that a reference means. -/
def memberAt? (g : ClassGraph) (r : MemberRef) : Option Member := g.member? r.cls r.key

/-- The references of all members, class by class. -/
def refs (g : ClassGraph) : List MemberRef :=
  g.classes.flatMap fun c => c.members.values.map Member.ref

/-- Change all classes, but not their names. -/
def mapClasses (g : ClassGraph) (f : DocClass → DocClass) (h : ∀ c, (f c).name = c.name) :
    ClassGraph :=
  { g with
    classes := g.classes.map f
    distinct := by
      have : g.classes.map (DocClass.name ∘ f) = g.classes.map DocClass.name :=
        List.map_congr_left fun c _ => h c
      simpa [List.map_map, this] using g.distinct }

/-- Change the member that a reference means, but not its reference. -/
def modifyMember (g : ClassGraph) (r : MemberRef) (f : Member → Member)
    (h : ∀ m, (f m).ref = m.ref) : ClassGraph :=
  g.mapClasses (fun c => c.mapMembers (fun m => if m.ref = r then f m else m) fun m => by
    split
    · exact h m
    · rfl) fun _ => rfl

end ClassGraph

end DocGraph
