import Mathlib.Data.List.Nodup
import Mathlib.Data.List.Perm.Basic

namespace HostMonitoring.Framework

/-- A directory tree as a listing shows it. Names are of some type `ν`. -/
inductive Node (ν : Type) where
  | file (mode nlink : Nat) (content : List UInt8)
  | directory (mode : Nat) (children : List (ν × Node ν))
  | symlink
  | special

namespace Node

variable {ν : Type}

theorem induction (P : Node ν → Prop)
    (file : ∀ mode nlink content, P (.file mode nlink content))
    (directory : ∀ mode children, (∀ c ∈ children, P c.2) → P (.directory mode children))
    (symlink : P .symlink) (special : P .special) (n : Node ν) : P n :=
  match n with
  | .file mode nlink content => file mode nlink content
  | .directory mode children =>
    directory mode children fun c _ => induction P file directory symlink special c.2
  | .symlink => symlink
  | .special => special
termination_by sizeOf n
decreasing_by
  have hc : sizeOf c < sizeOf children := List.sizeOf_lt_of_mem ‹_›
  obtain ⟨name, child⟩ := c
  simp only [Prod.mk.sizeOf_spec, Node.directory.sizeOf_spec] at hc ⊢
  omega

/-- Children in the order of their names. -/
def sortByName {α : Type} (le : ν → ν → Bool) (children : List (ν × α)) : List (ν × α) :=
  children.mergeSort fun a b => le a.1 b.1

theorem sortByName_perm {α : Type} (le : ν → ν → Bool) (children : List (ν × α)) :
    (sortByName le children).Perm children := List.mergeSort_perm _ _

theorem sortByName_map {α β : Type} (le : ν → ν → Bool) (children : List (ν × α))
    (f : ν × α → β) :
    sortByName le (children.map fun c => (c.1, f c)) =
      (sortByName le children).map fun c => (c.1, f c) := by
  unfold sortByName
  rw [List.map_mergeSort]
  simp

mutual

/-- The nodes below a node, each with its path. -/
def descendants : Node ν → List ν → List (List ν × Node ν)
  | .directory _ children, path => childDescendants children path
  | .file .., _ => []
  | .symlink, _ => []
  | .special, _ => []

def childDescendants : List (ν × Node ν) → List ν → List (List ν × Node ν)
  | [], _ => []
  | (name, child) :: rest, path =>
    ((path ++ [name], child) :: descendants child (path ++ [name])) ++ childDescendants rest path

end

/-- A child with all that is below it. -/
def subtree (path : List ν) (c : ν × Node ν) : List (List ν × Node ν) :=
  (path ++ [c.1], c.2) :: c.2.descendants (path ++ [c.1])

theorem childDescendants_eq (children : List (ν × Node ν)) (path : List ν) :
    childDescendants children path = children.flatMap (subtree path) := by
  induction children with
  | nil => rw [childDescendants, List.flatMap_nil]
  | cons c rest ih => rw [childDescendants, ih, List.flatMap_cons, subtree]

theorem descendants_directory (mode : Nat) (children : List (ν × Node ν)) (path : List ν) :
    (directory mode children).descendants path = children.flatMap (subtree path) := by
  rw [descendants, childDescendants_eq]

mutual

/-- The nodes below a node in the order of a walk that sorts each listing by name. -/
def walkOrder (le : ν → ν → Bool) : Node ν → List ν → List (List ν × Node ν)
  | .directory _ children, path =>
    (sortByName le (walkOrders le children)).flatMap fun c => c.2 path
  | .file .., _ => []
  | .symlink, _ => []
  | .special, _ => []

def walkOrders (le : ν → ν → Bool) :
    List (ν × Node ν) → List (ν × (List ν → List (List ν × Node ν)))
  | [] => []
  | (name, child) :: rest =>
    (name, fun path => (path ++ [name], child) :: walkOrder le child (path ++ [name])) ::
      walkOrders le rest

end

theorem walkOrders_eq (le : ν → ν → Bool) (children : List (ν × Node ν)) :
    walkOrders le children = children.map fun c =>
      (c.1, fun path => (path ++ [c.1], c.2) :: c.2.walkOrder le (path ++ [c.1])) := by
  induction children with
  | nil => rw [walkOrders, List.map_nil]
  | cons c rest ih => rw [walkOrders, ih, List.map_cons]

/-- A child in walk order with all that is below it. -/
def visited (le : ν → ν → Bool) (path : List ν) (c : ν × Node ν) : List (List ν × Node ν) :=
  (path ++ [c.1], c.2) :: c.2.walkOrder le (path ++ [c.1])

theorem walkOrder_directory (le : ν → ν → Bool) (mode : Nat) (children : List (ν × Node ν))
    (path : List ν) :
    (directory mode children).walkOrder le path =
      (sortByName le children).flatMap (visited le path) := by
  rw [walkOrder, walkOrders_eq, sortByName_map, List.flatMap_map]
  rfl

theorem walkOrder_perm (le : ν → ν → Bool) (n : Node ν) :
    ∀ path, (n.walkOrder le path).Perm (n.descendants path) := by
  induction n using Node.induction with
  | directory mode children ih =>
    intro path
    rw [walkOrder_directory, descendants_directory]
    apply (sortByName_perm le children).flatMap
    intro c hc
    have hm : c ∈ children := (sortByName_perm le children).mem_iff.mp hc
    exact (ih c hm _).cons _
  | file mode nlink content => exact fun path => by simp [walkOrder, descendants]
  | symlink => exact fun path => by simp [walkOrder, descendants]
  | special => exact fun path => by simp [walkOrder, descendants]

/-- What is below a path has a path that goes on from there. -/
theorem path_of_mem_descendants (n : Node ν) : ∀ path item, item ∈ n.descendants path →
    ∃ middle name, item.1 = path ++ middle ++ [name] := by
  induction n using Node.induction with
  | directory mode children ih =>
    intro path item h
    rw [descendants_directory] at h
    obtain ⟨c, hc, h⟩ := List.mem_flatMap.mp h
    rcases List.mem_cons.mp h with rfl | h
    · exact ⟨[], c.1, by simp⟩
    · obtain ⟨middle, name, hp⟩ := ih c hc _ item h
      exact ⟨c.1 :: middle, name, by simp [hp]⟩
  | file mode nlink content => simp [descendants]
  | symlink => simp [descendants]
  | special => simp [descendants]

mutual

/-- No listing shows a name twice. -/
def Distinct : Node ν → Prop
  | .directory _ children => (children.map Prod.fst).Nodup ∧ DistinctBelow children
  | .file .. => True
  | .symlink => True
  | .special => True

def DistinctBelow : List (ν × Node ν) → Prop
  | [] => True
  | (_, child) :: rest => Distinct child ∧ DistinctBelow rest

end

theorem distinctBelow_iff (children : List (ν × Node ν)) :
    DistinctBelow children ↔ ∀ c ∈ children, c.2.Distinct := by
  induction children with
  | nil => simp [DistinctBelow]
  | cons c rest ih => rw [DistinctBelow, ih, List.forall_mem_cons]

theorem distinct_directory (mode : Nat) (children : List (ν × Node ν)) :
    (directory mode children).Distinct ↔
      (children.map Prod.fst).Nodup ∧ ∀ c ∈ children, c.2.Distinct := by
  rw [Distinct, distinctBelow_iff]

theorem prefix_of_mem_subtree (path : List ν) (c : ν × Node ν) (item : List ν × Node ν)
    (h : item ∈ subtree path c) : ∃ rest, item.1 = path ++ c.1 :: rest := by
  rcases List.mem_cons.mp h with rfl | h
  · exact ⟨[], rfl⟩
  · obtain ⟨middle, name, hp⟩ := path_of_mem_descendants c.2 _ item h
    exact ⟨middle ++ [name], by simp [hp]⟩

/-- Where no listing shows a name twice, no two nodes have one path. -/
theorem nodup_descendants (n : Node ν) (h : n.Distinct) :
    ∀ path, ((n.descendants path).map Prod.fst).Nodup := by
  induction n using Node.induction with
  | directory mode children ih =>
    intro path
    obtain ⟨names, below⟩ := (distinct_directory mode children).mp h
    rw [descendants_directory, List.map_flatMap, List.nodup_flatMap]
    constructor
    · intro c hc
      rw [subtree, List.map_cons, List.nodup_cons]
      refine ⟨?_, ih c hc (below c hc) _⟩
      intro hm
      obtain ⟨item, hi, he⟩ := List.mem_map.mp hm
      obtain ⟨middle, name, hp⟩ := path_of_mem_descendants c.2 _ item hi
      have hl := congrArg List.length (he.symm.trans hp)
      simp at hl
    · rw [List.Nodup, List.pairwise_map] at names
      apply names.imp
      intro c d apart path' hc hd
      obtain ⟨item, hi, rfl⟩ := List.mem_map.mp hc
      obtain ⟨item', hi', he⟩ := List.mem_map.mp hd
      obtain ⟨rest, hp⟩ := prefix_of_mem_subtree path c item hi
      obtain ⟨rest', hp'⟩ := prefix_of_mem_subtree path d item' hi'
      rw [hp, hp'] at he
      exact apart (List.cons.inj (List.append_cancel_left he)).1.symm
  | file mode nlink content => simp [descendants]
  | symlink => simp [descendants]
  | special => simp [descendants]

end Node

/-- A directory with all that is below it. -/
structure FileTree (ν : Type) where
  mode : Nat
  children : List (ν × Node ν)
  distinct : (Node.directory mode children).Distinct

namespace FileTree

variable {ν : Type}

def root (t : FileTree ν) : Node ν := .directory t.mode t.children

def nodes (t : FileTree ν) : List (List ν × Node ν) := t.root.descendants []

end FileTree
end HostMonitoring.Framework
