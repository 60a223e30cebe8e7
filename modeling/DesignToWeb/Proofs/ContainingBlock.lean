import DesignToWeb.Proofs.Conversion
import DesignToWeb.Proofs.Css.Rules
import DesignToWeb.Proofs.Tree

/-!
# Containing blocks

An element that stands at a place is placed in the nearest element around it
that declares a position.  Its place is counted from its parent, so the parent
should declare one.  Flows do, and so do elements that stand at a place
themselves.  An element that takes part in a flow without being one does not.
-/

namespace DesignToWeb

open Outcome

namespace Css

/-- Whether an element with these declarations is a containing block. -/
def declaresPosition (ds : List Declaration) : Bool :=
  ds.any fun d ↦ d.property = .position && (d.value = "absolute" || d.value = "relative")

theorem declaresPosition_append_style {asset? : Option ImageAsset} {ds style : List Declaration}
    (h : ∀ d ∈ style, StyleDeclaration asset? d) :
    declaresPosition (ds ++ style) = declaresPosition ds := by
  have hstyle : declaresPosition style = false := by
    rw [declaresPosition, List.any_eq_false]
    intro d hd
    simp [(h d hd).property_ne_position]
  rw [declaresPosition, List.any_append]
  exact (congrArg (declaresPosition ds || ·) hstyle).trans (Bool.or_false _)

/-- A layout of a design declares a position unless it is left to the flow around it. -/
theorem declaresPosition_layout {node : Attributes} {inFlow : Bool} {layout : Layout}
    {groups : List (List Declaration)} (hread : Design.IsLayoutOf node inFlow layout)
    (h : layoutRules layout = .ok groups) :
    declaresPosition groups.flatten = !layout.isFlowItem := by
  cases layout with
  | flow box =>
      obtain ⟨gap, _, h⟩ := bind_eq_ok.mp h
      obtain ⟨top, _, h⟩ := bind_eq_ok.mp h
      obtain ⟨right, _, h⟩ := bind_eq_ok.mp h
      obtain ⟨bottom, _, h⟩ := bind_eq_ok.mp h
      obtain ⟨left, _, h⟩ := bind_eq_ok.mp h
      obtain ⟨width, _, h⟩ := bind_eq_ok.mp h
      obtain ⟨height, _, h⟩ := bind_eq_ok.mp h
      have hgroups := pure_eq_ok.mp h
      -- the position stands in the last group, which every flow has
      have hlast : (⟨.position, "relative"⟩ : Declaration) ∈ groups.flatten := by
        rw [← hgroups, List.flatten_append]
        exact List.mem_append_right _ (.tail _ (.tail _ (.head _)))
      exact List.any_eq_true.mpr ⟨_, hlast, by decide⟩
  | flowItem width height =>
      obtain ⟨w, _, h⟩ := bind_eq_ok.mp h
      obtain ⟨l, _, h⟩ := bind_eq_ok.mp h
      rw [← pure_eq_ok.mp h]
      rfl
  | absolute x y width height =>
      obtain ⟨left, _, h⟩ := bind_eq_ok.mp h
      obtain ⟨top, _, h⟩ := bind_eq_ok.mp h
      obtain ⟨sizes, _, h⟩ := bind_eq_ok.mp h
      rw [← pure_eq_ok.mp h]
      rfl
  | unplaced => exact hread.elim

end Css

/-- A box with a child that stands at a place is the containing block of that child, unless it is an
item of a flow itself. -/
theorem declaresPosition_iff_not_flowItem {policy : Policy} {file : Json}
    {document : ClassifiedDocument} {title : String} {assets : Css.ImageAssets}
    {emission : Emission} (hdocument : classifyDocument policy file = .ok document)
    (hemit : emit title assets document = .ok emission) :
    ∀ tree ∈ Tree.subtreesForest document.scene, tree.value.strategy = .markup →
      (∃ child ∈ tree.children, child.value.element.layout.isAbsolute) →
      ∃ rules, Css.elementRules tree.value (assets.lookup tree.value.id) = .ok rules ∧
        (Css.declaresPosition rules ↔ ¬ tree.value.element.layout.isFlowItem) := by
  intro tree htree _ _
  have hmem := Tree.value_mem_preorderForest htree
  obtain ⟨rules, hrules⟩ := exists_elementRules_of_emit hemit hmem
  obtain ⟨node, parentBox, inFlow, warnings, hread⟩ := exists_readElement_of_mem hdocument hmem
  have hlayout := Design.isLayoutOf_of_readLayout (Design.readElement?_eq_some hread).layout
  obtain ⟨layout, style, hgroups, rfl, hstyle⟩ := Css.elementRules_eq_ok hrules
  refine ⟨_, hrules, ?_⟩
  rw [Css.declaresPosition_append_style hstyle, Css.declaresPosition_layout hlayout hgroups]
  simp

/-- A row with a card in its flow and a ribbon beside it; a badge stands at a place in the card. -/
def rowOfCards : Json :=
  .obj [("children", .arr [.obj [("id", .str "0:1"), ("children", .arr [
    .obj [("id", .str "1:1"), ("type", .str "FRAME"), ("layoutMode", .str "HORIZONTAL"),
      ("absoluteBoundingBox",
        .obj [("x", .int 0), ("y", .int 0), ("width", .int 300), ("height", .int 100)]),
      ("children", .arr [
        .obj [("id", .str "1:2"), ("type", .str "FRAME"),
          ("absoluteBoundingBox",
            .obj [("x", .int 100), ("y", .int 0), ("width", .int 200), ("height", .int 100)]),
          ("children", .arr [
            .obj [("id", .str "1:3"), ("type", .str "RECTANGLE"),
              ("absoluteBoundingBox",
                .obj [("x", .int 110), ("y", .int 20), ("width", .int 30), ("height", .int 30)])]])],
        .obj [("id", .str "1:4"), ("type", .str "RECTANGLE"),
          ("layoutPositioning", .str "ABSOLUTE"),
          ("absoluteBoundingBox",
            .obj [("x", .int 0), ("y", .int 0), ("width", .int 20), ("height", .int 20)])]])]])]])]

theorem exists_tree_of_row {p : Tree Classified → Bool}
    (h : (match classifyDocument {} rowOfCards with
      | .ok document => (emit "Generated" [] document).toOption.isSome &&
          (Tree.subtreesForest document.scene).any p
      | .error _ => false) = true) :
    ∃ document emission, classifyDocument {} rowOfCards = .ok document ∧
      emit "Generated" [] document = .ok emission ∧
      ∃ tree ∈ Tree.subtreesForest document.scene, p tree = true := by
  cases hdocument : classifyDocument {} rowOfCards with
  | error fault =>
      rw [hdocument] at h
      exact Bool.noConfusion h
  | ok document =>
      simp only [hdocument, Bool.and_eq_true] at h
      obtain ⟨hemit, htree⟩ := h
      cases hemission : emit "Generated" [] document with
      | error fault =>
          rw [hemission] at hemit
          exact Bool.noConfusion hemit
      | ok emission => exact ⟨document, emission, rfl, hemission, List.any_eq_true.mp htree⟩

/-- The row is the containing block of the ribbon. -/
theorem declaresPosition_row : ∃ document emission,
    classifyDocument {} rowOfCards = .ok document ∧
      emit "Generated" [] document = .ok emission ∧
      ∃ tree ∈ Tree.subtreesForest document.scene, tree.value.id = "1:1" ∧
        ∃ rules, Css.elementRules tree.value none = .ok rules ∧
          Css.declaresPosition rules = true := by
  obtain ⟨document, emission, hdocument, hemit, tree, htree, hrow⟩ :
      ∃ document emission, classifyDocument {} rowOfCards = .ok document ∧
        emit "Generated" [] document = .ok emission ∧
        ∃ tree ∈ Tree.subtreesForest document.scene,
          (tree.value.id = "1:1" && tree.value.strategy = .markup &&
            tree.children.any (·.value.element.layout.isAbsolute) &&
            !tree.value.element.layout.isFlowItem) = true :=
    exists_tree_of_row (by decide +kernel)
  simp only [Bool.and_eq_true, decide_eq_true_eq, List.any_eq_true] at hrow
  obtain ⟨⟨⟨hid, hmarkup⟩, hchild⟩, hitem⟩ := hrow
  obtain ⟨rules, hrules, hposition⟩ :=
    declaresPosition_iff_not_flowItem hdocument hemit tree htree hmarkup hchild
  have hitem : ¬ tree.value.element.layout.isFlowItem = true := by simpa using hitem
  exact ⟨document, emission, hdocument, hemit, tree, htree, hid, rules, hrules,
    hposition.mpr hitem⟩

/-- The card is no containing block, though the badge has its place counted from the card. -/
theorem not_declaresPosition_card : ∃ document emission,
    classifyDocument {} rowOfCards = .ok document ∧
      emit "Generated" [] document = .ok emission ∧
      ∃ tree ∈ Tree.subtreesForest document.scene, tree.value.strategy = .markup ∧
        (∃ child ∈ tree.children, child.value.element.layout.isAbsolute) ∧
        ∃ rules, Css.elementRules tree.value none = .ok rules ∧
          Css.declaresPosition rules = false := by
  obtain ⟨document, emission, hdocument, hemit, tree, htree, hcard⟩ :
      ∃ document emission, classifyDocument {} rowOfCards = .ok document ∧
        emit "Generated" [] document = .ok emission ∧
        ∃ tree ∈ Tree.subtreesForest document.scene,
          (tree.value.strategy = .markup &&
            tree.children.any (·.value.element.layout.isAbsolute) &&
            ((Css.elementRules tree.value none).toOption.any
              (!Css.declaresPosition ·))) = true :=
    exists_tree_of_row (by decide +kernel)
  simp only [Bool.and_eq_true, decide_eq_true_eq, List.any_eq_true, Option.any_eq_true] at hcard
  obtain ⟨⟨hmarkup, hchild⟩, rules, hrules, hposition⟩ := hcard
  refine ⟨document, emission, hdocument, hemit, tree, htree, hmarkup, hchild, rules, ?_, ?_⟩
  · cases hcase : Css.elementRules tree.value none with
    | error fault =>
        rw [hcase] at hrules
        exact nomatch hrules
    | ok own =>
        rw [hcase] at hrules
        exact congrArg Except.ok (Option.some.inj hrules)
  · simpa using hposition

end DesignToWeb
