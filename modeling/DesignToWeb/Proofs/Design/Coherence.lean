import DesignToWeb.Proofs.Design.Parents
import DesignToWeb.Proofs.Design.Placement
import DesignToWeb.Proofs.Json.Label

/-!
# Layouts of parents and children

Whether the parent of a node is a flow is told from the node of the parent, not
from its layout.  Both are settled by the mode of the parent alone, so they
agree at every edge of a scene: only a child of a flow takes part in one, and
all of its children do that neither are flows themselves nor opt out.
-/

namespace DesignToWeb.Design

/-! ## Flows -/

/-- Whether a node lays out its children. -/
def laysOut (node : Attributes) : Bool :=
  (node.get "layoutMode").isStr "HORIZONTAL" || (node.get "layoutMode").isStr "VERTICAL"

theorem isSome_flowDirection? (node : Attributes) :
    (flowDirection? node).isSome = laysOut node := by
  unfold flowDirection? laysOut
  split
  · next h => rw [Json.isStr_of_labelOrEmpty h (by decide) (by decide)]; rfl
  · next h => rw [Json.isStr_of_labelOrEmpty h (by decide) (by decide), Bool.or_true]; rfl
  · next hrow hcolumn =>
      refine (Bool.or_eq_false_iff.mpr ⟨?_, ?_⟩).symm
      · exact Bool.eq_false_iff.mpr fun h ↦ hrow (Json.labelOrEmpty_of_isStr h (by decide))
      · exact Bool.eq_false_iff.mpr fun h ↦ hcolumn (Json.labelOrEmpty_of_isStr h (by decide))

/-- Whether a flow has the height of its node, or that of its content in place of zero. -/
def IsHeightOf (node : Attributes) (extent : Extent) : Prop :=
  ∃ height, rawHeight node = .ok height ∧
    ((height.isZero = true ∧ extent = .auto) ∨ (height.isZero = false ∧ extent = .length height))

/-! ## Single readings -/

/-- Whether a layout is the one that a node asks for below a parent that is a flow or is not. -/
structure Coheres (parentFlows : Bool) (node : Attributes) (layout : Layout) : Prop where
  flow : layout.isFlow = laysOut node
  absolute : layout.isAbsolute = (!laysOut node && (!parentFlows || optsOut node))
  flowItem : layout.isFlowItem = (!laysOut node && parentFlows && !optsOut node)
  height : ∀ box, layout = .flow box → IsHeightOf node box.height

theorem coheres_of_readLayout {node : Attributes} {parentBox : Option Attributes} {inFlow : Bool}
    {layout : Layout} (h : readLayout node parentBox inFlow = .ok layout) :
    Coheres inFlow node layout := by
  have hlaysOut := isSome_flowDirection? node
  obtain ⟨width, height, hheight, ⟨direction, box, hdirection, hbox, rfl⟩ |
    ⟨hdirection, hflows, hstays, rfl⟩ | ⟨hdirection, hleft, x, y, _, _, rfl⟩⟩ := readLayout_eq_ok h
  · rw [hdirection] at hlaysOut
    refine ⟨hlaysOut, ?_, ?_, fun own hown ↦ ⟨height, hheight, ?_⟩⟩
    · rw [← hlaysOut]
      rfl
    · rw [← hlaysOut]
      rfl
    · rw [← Layout.flow.inj hown, (readFlowBox_eq_ok hbox).2]
      cases height.isZero with
      | true => exact .inl ⟨rfl, rfl⟩
      | false => exact .inr ⟨rfl, rfl⟩
  · rw [hdirection] at hlaysOut
    refine ⟨hlaysOut, ?_, ?_, fun _ hown ↦ nomatch hown⟩
    · rw [← hlaysOut, hflows, hstays]
      rfl
    · rw [← hlaysOut, hflows, hstays]
      rfl
  · rw [hdirection] at hlaysOut
    refine ⟨hlaysOut, ?_, ?_, fun _ hown ↦ nomatch hown⟩
    all_goals
      rw [← hlaysOut]
      rcases hleft with hleft | hleft <;> simp [hleft, Layout.isAbsolute, Layout.isFlowItem]

theorem ReadNode.IsBelow.coheres {parent? : Option Attributes} {r : ReadNode}
    (h : r.IsBelow parent?) : Coheres (parent?.any laysOut) r.node r.element.layout := by
  obtain ⟨warnings, hread⟩ := h
  have hlayout := coheres_of_readLayout (readElement?_eq_some hread).layout
  simpa only [isSome_flowDirection?] using hlayout

/-! ## Trees of readings -/

namespace ReadBelow

variable {parent? : Option Attributes} {reads : List (Tree ReadNode)}

theorem exists_isBelow (h : ReadBelow parent? reads) {tree : Tree ReadNode}
    (htree : tree ∈ Tree.subtreesForest reads) : ∃ above?, tree.value.IsBelow above? := by
  rcases Tree.mem_or_mem_children_of_mem_subtreesForest htree with htop | ⟨parent, hparent, hchild⟩
  · exact ⟨parent?, h.tops tree htop⟩
  · exact ⟨some parent.value.node, h.children parent hparent tree hchild⟩

/-- A child is told that it stands in a flow exactly when its parent came to one. -/
theorem child_coheres (h : ReadBelow parent? reads) {tree child : Tree ReadNode}
    (htree : tree ∈ Tree.subtreesForest reads) (hchild : child ∈ tree.children) :
    Coheres tree.value.element.layout.isFlow child.value.node child.value.element.layout := by
  obtain ⟨above?, hparent⟩ := h.exists_isBelow htree
  rw [hparent.coheres.flow]
  exact (h.children tree htree child hchild).coheres

end ReadBelow

/-! ## Documents -/

/-- Every layout of a scene is the one that its node and the layout of its parent ask for.  So
nothing at the top takes part in a flow, whatever does is a child of a flow, and a flow of no height
is left to its content. -/
theorem readDocument_layouts_cohere {file : Json} {document : Document}
    (h : readDocument file = .ok document) :
    (∃ reads : List (Tree ReadNode), Tree.mapForest ReadNode.node reads = keptNodes file ∧
      Tree.mapForest ReadNode.element reads = document.scene ∧
      (∀ top ∈ reads, Coheres false top.value.node top.value.element.layout) ∧
      ∀ tree ∈ Tree.subtreesForest reads, ∀ child ∈ tree.children,
        Coheres tree.value.element.layout.isFlow child.value.node child.value.element.layout) ∧
    (∀ top ∈ document.scene, top.value.layout.isFlowItem = false) ∧
    (∀ tree ∈ Tree.subtreesForest document.scene, tree.value.layout.isFlowItem = true →
      ∃ parent ∈ Tree.subtreesForest document.scene,
        parent.value.layout.isFlow = true ∧ tree ∈ parent.children) ∧
    ∀ tree ∈ Tree.subtreesForest document.scene, ∀ box, tree.value.layout = .flow box →
      ∀ height, box.height = .length height → height.isZero = false := by
  obtain ⟨reads, hnodes, helements, hreads⟩ := exists_readBelow_of_readDocument h
  have htops : ∀ top ∈ reads, Coheres false top.value.node top.value.element.layout :=
    fun top htop ↦ (hreads.tops top htop).coheres
  rw [← helements, Tree.subtreesForest_mapForest, Tree.mapForest_eq_map]
  simp only [List.forall_mem_map, Tree.value_map]
  refine ⟨⟨reads, hnodes, Tree.mapForest_eq_map _ _, htops, fun tree htree child hchild ↦
    hreads.child_coheres htree hchild⟩, ?_, ?_, ?_⟩
  · intro top htop
    rw [(htops top htop).flowItem, Bool.and_false, Bool.false_and]
  · -- an item is no top of the scene, so something stands above it, and that is a flow
    intro tree htree hitem
    rcases Tree.mem_or_mem_children_of_mem_subtreesForest htree with
      htop | ⟨parent, hparent, hchild⟩
    · rw [(htops tree htop).flowItem, Bool.and_false, Bool.false_and] at hitem
      exact Bool.noConfusion hitem
    · refine ⟨_, List.mem_map_of_mem hparent, ?_, ?_⟩
      · rw [(hreads.child_coheres hparent hchild).flowItem] at hitem
        rw [Tree.value_map]
        exact (Bool.and_eq_true_iff.mp (Bool.and_eq_true_iff.mp hitem).1).2
      · rw [Tree.children_map, Tree.mapForest_eq_map]
        exact List.mem_map_of_mem hchild
  · intro tree htree box hbox height hheight
    obtain ⟨above?, hbelow⟩ := hreads.exists_isBelow htree
    obtain ⟨raw, _, ⟨_, hauto⟩ | ⟨hzero, hlength⟩⟩ := hbelow.coheres.height box hbox
    · exact nomatch hauto.symm.trans hheight
    · rw [← Extent.length.inj (hlength.symm.trans hheight)]
      exact hzero

/-- A shelf with a book, a column without height and a ribbon that opts out of the row.  A label
stands in the book and another in the column. -/
def shelf : Json :=
  .obj [("children", .arr [.obj [("id", .str "0:1"), ("children", .arr [
    .obj [("id", .str "1:1"), ("type", .str "FRAME"), ("layoutMode", .str "HORIZONTAL"),
      ("absoluteBoundingBox", .obj [("width", .int 300), ("height", .int 100)]),
      ("children", .arr [
        .obj [("id", .str "1:2"), ("type", .str "FRAME"), ("children", .arr [
          .obj [("id", .str "1:3"), ("type", .str "TEXT")]])],
        .obj [("id", .str "1:4"), ("type", .str "FRAME"), ("layoutMode", .str "VERTICAL"),
          ("layoutPositioning", .str "ABSOLUTE"), ("children", .arr [
            .obj [("id", .str "1:5"), ("type", .str "TEXT")]])],
        .obj [("id", .str "1:6"), ("type", .str "RECTANGLE"),
          ("layoutPositioning", .str "ABSOLUTE")]])]])]])]

/-- The book and the label of the column take part in flows, and both stand in one. -/
theorem readDocument_layouts_cohere_shelf : ∃ document, readDocument shelf = .ok document ∧
    (Tree.preorderForest document.scene).map (·.layout.isFlowItem) =
      [false, true, false, false, true, false] ∧
    ∀ tree ∈ Tree.subtreesForest document.scene, tree.value.layout.isFlowItem = true →
      ∃ parent ∈ Tree.subtreesForest document.scene,
        parent.value.layout.isFlow = true ∧ tree ∈ parent.children := by
  have hitems : (readDocument shelf).toOption.map
      (fun document ↦ (Tree.preorderForest document.scene).map (·.layout.isFlowItem)) =
        some [false, true, false, false, true, false] := by decide +kernel
  cases hdocument : readDocument shelf with
  | error fault =>
      rw [hdocument] at hitems
      exact nomatch hitems
  | ok document =>
      rw [hdocument] at hitems
      obtain ⟨_, _, hparents, _⟩ := readDocument_layouts_cohere hdocument
      exact ⟨document, rfl, Option.some.inj hitems, hparents⟩

end DesignToWeb.Design
