import DesignToWeb.Proofs.Design.Kept
import DesignToWeb.Proofs.Tree

/-!
# Nodes and their parents

The kept nodes of a document and its scene are one tree of readings, each a node
with its element.  An element at the top is read without a parent, and every
other one below the node of the element above it, never below a node that was
left out.  So whatever one reading hands down holds at every edge of the scene
and along all of its paths.
-/

namespace DesignToWeb.Design

/-- A node with the element that it comes to. -/
structure ReadNode where
  node : Attributes
  element : Element

/-- Whether the element is read from the node, given the node above, if there is one. -/
def ReadNode.IsBelow (parent? : Option Attributes) (r : ReadNode) : Prop :=
  ∃ warnings, readElement? r.node (parent?.bind boundingBox?)
    (parent?.any fun parent ↦ (flowDirection? parent).isSome) = .ok (some (r.element, warnings))

/-- Whether every node is read below the node that stands above it. -/
structure ReadBelow (parent? : Option Attributes) (reads : List (Tree ReadNode)) : Prop where
  tops : ∀ top ∈ reads, top.value.IsBelow parent?
  children : ∀ tree ∈ Tree.subtreesForest reads, ∀ child ∈ tree.children,
    child.value.IsBelow (some tree.value.node)

namespace ReadBelow

variable {parent? : Option Attributes}

theorem nil : ReadBelow parent? [] where
  tops _ h := absurd h List.not_mem_nil
  children _ h := absurd h List.not_mem_nil

theorem node {r : ReadNode} {reads : List (Tree ReadNode)} (hroot : r.IsBelow parent?)
    (h : ReadBelow (some r.node) reads) : ReadBelow parent? [.node r reads] where
  tops top htop := by
    rw [List.mem_singleton.mp htop]
    exact hroot
  children tree htree child hchild := by
    rw [Tree.subtreesForest, Tree.subtreesForest, List.append_nil, Tree.subtrees] at htree
    rcases List.mem_cons.mp htree with rfl | htree
    · exact h.tops child hchild
    · exact h.children tree htree child hchild

theorem cons {read : Tree ReadNode} {reads : List (Tree ReadNode)} (hread : ReadBelow parent? [read])
    (h : ReadBelow parent? reads) : ReadBelow parent? (read :: reads) where
  tops top htop := by
    rcases List.mem_cons.mp htop with rfl | htop
    · exact hread.tops top List.mem_cons_self
    · exact h.tops top htop
  children tree htree child hchild := by
    rcases List.mem_append.mp htree with htree | htree
    · refine hread.children tree ?_ child hchild
      rwa [Tree.subtreesForest, Tree.subtreesForest, List.append_nil]
    · exact h.children tree htree child hchild

theorem of_cons {r : ReadNode} {below rest : List (Tree ReadNode)}
    (h : ReadBelow parent? (.node r below :: rest)) :
    r.IsBelow parent? ∧ ReadBelow (some r.node) below ∧ ReadBelow parent? rest := by
  refine ⟨h.tops _ List.mem_cons_self, ⟨fun top htop ↦ ?_, fun tree htree ↦ ?_⟩,
    ⟨fun top htop ↦ ?_, fun tree htree ↦ ?_⟩⟩
  · exact h.children (.node r below) List.mem_cons_self top htop
  · exact h.children tree (List.mem_append_left _ (List.mem_cons_of_mem _ htree))
  · exact h.tops top (List.mem_cons_of_mem _ htop)
  · exact h.children tree (List.mem_append_right _ htree)

end ReadBelow

/-- Whether every node of a path is read below the one before it. -/
def ReadAlong : Option Attributes → List ReadNode → Prop
  | _, [] => True
  | parent?, r :: rest => r.IsBelow parent? ∧ ReadAlong (some r.node) rest

theorem ReadBelow.readAlong {parent? : Option Attributes} : (reads : List (Tree ReadNode)) →
    ReadBelow parent? reads → ∀ path ∈ Tree.pathsForest reads, ReadAlong parent? path
  | [], _, path, hpath => absurd hpath List.not_mem_nil
  | .node r below :: rest, h, path, hpath => by
    obtain ⟨hroot, hbelow, hrest⟩ := h.of_cons
    rcases List.mem_append.mp hpath with hpath | hpath
    · rcases List.mem_cons.mp hpath with rfl | hpath
      · exact ⟨hroot, trivial⟩
      · obtain ⟨inner, hinner, rfl⟩ := List.mem_map.mp hpath
        exact ⟨hroot, hbelow.readAlong below inner hinner⟩
    · exact hrest.readAlong rest path hpath

theorem ReadAlong.below {parent? : Option Attributes} {above below : List ReadNode} {r : ReadNode}
    (h : ReadAlong parent? (above ++ r :: below)) : ReadAlong (some r.node) below := by
  induction above generalizing parent? with
  | nil => exact h.2
  | cons first above ih => exact ih h.2

mutual

theorem IsReading.exists_readBelow : (tree : Tree Attributes) → (element : Tree Element) →
    {parent? : Option Attributes} → IsReading (parent?.bind boundingBox?)
      (parent?.any fun parent ↦ (flowDirection? parent).isSome) tree element →
    ∃ read : Tree ReadNode, read.map ReadNode.node = tree ∧ read.map ReadNode.element = element ∧
      ReadBelow parent? [read]
  | .node node children, .node element below, parent?, h => by
    obtain ⟨reads, hnodes, helements, hreads⟩ :=
      @AreReadings.exists_readBelow children below (some node) h.2
    refine ⟨.node ⟨node, element⟩ reads, ?_, ?_, .node h.1 hreads⟩
    · rw [Tree.map, hnodes]
    · rw [Tree.map, helements]

theorem AreReadings.exists_readBelow : (trees : List (Tree Attributes)) →
    (elements : List (Tree Element)) → {parent? : Option Attributes} →
    AreReadings (parent?.bind boundingBox?)
      (parent?.any fun parent ↦ (flowDirection? parent).isSome) trees elements →
    ∃ reads : List (Tree ReadNode), Tree.mapForest ReadNode.node reads = trees ∧
      Tree.mapForest ReadNode.element reads = elements ∧ ReadBelow parent? reads
  | [], [], _, _ => ⟨[], rfl, rfl, .nil⟩
  | [], _ :: _, _, h => h.elim
  | _ :: _, [], _, h => h.elim
  | tree :: trees, element :: elements, _, h => by
    obtain ⟨read, hnode, helement, hread⟩ := IsReading.exists_readBelow tree element h.1
    obtain ⟨reads, hnodes, helements, hreads⟩ := AreReadings.exists_readBelow trees elements h.2
    refine ⟨read :: reads, ?_, ?_, hread.cons hreads⟩
    · rw [Tree.mapForest, hnode, hnodes]
    · rw [Tree.mapForest, helement, helements]

end

/-- The kept nodes of a document and its scene are one tree of readings. -/
theorem exists_readBelow_of_readDocument {file : Json} {document : Document}
    (h : readDocument file = .ok document) :
    ∃ reads : List (Tree ReadNode), Tree.mapForest ReadNode.node reads = keptNodes file ∧
      Tree.mapForest ReadNode.element reads = document.scene ∧ ReadBelow none reads :=
  AreReadings.exists_readBelow (keptNodes file) document.scene (readDocument_areReadings h)

end DesignToWeb.Design
