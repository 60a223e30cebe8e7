import Mathlib.Algebra.GroupWithZero.Nat
import DesignToWeb.Proofs.Design.Membership

/-!
# No paint is lost

Every visible entry of the fills, strokes and effects of a kept node is drawn
by the style of its element, or is named by a warning.  The warnings of a
document follow the visits of the walk, those of a node at the place of the
node, and so what is drawn and what is warned about amount to the visible
entries of all kept nodes.
-/

namespace DesignToWeb

def Style.paintCount (style : Style) : Nat :=
  style.fills.length + style.strokes.length + style.effects.length

namespace Design

/-! ## Counts of a node -/

/-- How many entries of a node count, over its three lists. -/
def visibleCount (node : Attributes) : Nat :=
  (PaintList.fills.entries node).length + (PaintList.strokes.entries node).length +
    (PaintList.effects.entries node).length

theorem DrawsPaints.paintCount_add {node : Attributes} {style : Style}
    (h : DrawsPaints node style) :
    style.paintCount + (paintWarnings node).length = visibleCount node := by
  have hfills := PaintList.fills.length_drawn_add_warnings node
  have hstrokes := PaintList.strokes.length_drawn_add_warnings node
  have heffects := PaintList.effects.length_drawn_add_warnings node
  rw [h.fills.length_eq] at hfills
  rw [h.strokes.length_eq] at hstrokes
  rw [h.effects.length_eq] at heffects
  rw [Style.paintCount, paintWarnings, List.length_append, List.length_append, visibleCount]
  omega

/-! ## Warnings about paints -/

def isUnsupportedWarning (warning : String) : Bool :=
  "Unsupported ".toList.isPrefixOf warning.toList

theorem isUnsupportedWarning_warning (l : PaintList) (entry : Attributes) :
    isUnsupportedWarning (l.warning entry) = true := by
  unfold isUnsupportedWarning PaintList.warning
  rw [String.append_assoc, String.append_assoc]
  exact isPrefixOf_toList_append _ _

theorem isUnsupportedWarning_cycleWarning (key : String) :
    isUnsupportedWarning (cycleWarning key) = false := by
  unfold isUnsupportedWarning cycleWarning
  rw [String.append_assoc]
  exact isPrefixOf_toList_append_eq_false (by decide) _

theorem countP_paintWarnings (node : Attributes) :
    (paintWarnings node).countP isUnsupportedWarning = (paintWarnings node).length := by
  refine List.countP_eq_length.mpr fun warning hwarning ↦ ?_
  obtain ⟨l, entry, rfl⟩ := exists_of_mem_paintWarnings hwarning
  exact isUnsupportedWarning_warning l entry

/-! ## Visits -/

/-- The warnings of a visit: a node that is kept is warned about for each paint that cannot be
drawn. -/
def Visit.warnings (v : Visit) : List String :=
  match v.fate with
  | .repeated key => [cycleWarning key]
  | .kept => paintWarnings v.node
  | .passedOver | .unrenderable => []

/-- Whether an element is read from the node of a visit and draws its paints. -/
structure Visit.Draws (v : Visit) (element : Element) : Prop where
  read : ∃ warnings, readElement? v.node v.surroundings.box? v.surroundings.inFlow =
    .ok (some (element, warnings))
  paints : DrawsPaints v.node element.style

theorem Yields.warnings {v : Visit} {element? : Option Element} {tally : Tally}
    (h : Yields v element? tally) : tally.warnings = v.warnings := by
  cases h with
  | passedOver hfate => rw [Visit.warnings, hfate]; rfl
  | repeated hfate => rw [Visit.warnings, hfate]
  | unrenderable hfate => rw [Visit.warnings, hfate]; rfl
  | kept hfate hread =>
      rw [Visit.warnings, hfate]
      exact (readStyle_drawsPaints (readElement?_eq_some hread).style).2

/-- The visits that are kept, which are those that come to an element. -/
def keptVisits (vs : List Visit) : List Visit := vs.filter (·.fate = .kept)

namespace AllYield

variable {vs : List Visit} {elements : List Element} {tally : Tally}

theorem warnings (h : AllYield vs elements tally) :
    tally.warnings = vs.flatMap Visit.warnings := by
  induction h with
  | nil => rfl
  | cons hv _ ih => rw [Tally.warnings_add, hv.warnings, ih, List.flatMap_cons]

theorem draws (h : AllYield vs elements tally) :
    List.Forall₂ Visit.Draws (keptVisits vs) elements := by
  unfold keptVisits
  induction h with
  | nil => exact .nil
  | cons hv _ ih =>
      cases hv with
      | passedOver hfate | repeated hfate | unrenderable hfate =>
          rw [List.filter_cons_of_neg (by simp [hfate])]
          exact ih
      | kept hfate hread =>
          rw [List.filter_cons_of_pos (by simp [hfate])]
          have hpaints := (readStyle_drawsPaints (readElement?_eq_some hread).style).1
          exact .cons ⟨⟨_, hread⟩, hpaints⟩ ih

end AllYield

/-- The warnings about paints are those of the nodes that are kept. -/
theorem countP_warnings (vs : List Visit) :
    (vs.flatMap Visit.warnings).countP isUnsupportedWarning =
      ((keptVisits vs).map fun v ↦ (paintWarnings v.node).length).sum := by
  unfold keptVisits
  induction vs with
  | nil => rfl
  | cons v vs ih =>
      rw [List.flatMap_cons, List.countP_append, ih, Visit.warnings]
      cases hfate : v.fate with
      | kept =>
          rw [List.filter_cons_of_pos (by simp [hfate]), List.map_cons, List.sum_cons]
          exact congrArg (· + _) (countP_paintWarnings v.node)
      | repeated key =>
          rw [List.filter_cons_of_neg (by simp [hfate])]
          simp [isUnsupportedWarning_cycleWarning]
      | passedOver | unrenderable =>
          rw [List.filter_cons_of_neg (by simp [hfate])]
          simp

theorem sum_paintCount {vs : List Visit} {elements : List Element}
    (h : List.Forall₂ Visit.Draws vs elements) :
    (elements.map (·.style.paintCount)).sum + (vs.map fun v ↦ (paintWarnings v.node).length).sum =
      (vs.map fun v ↦ visibleCount v.node).sum := by
  induction h with
  | nil => rfl
  | cons hhere _ ih =>
      have hcount := hhere.paints.paintCount_add
      simp only [List.map_cons, List.sum_cons]
      omega

/-! ## Documents -/

/-- Every element draws the visible paints of its node that are supported, list by list and in their
order.  The warnings are, visit after visit, the one about a repeated id, or those about the fills,
strokes and effects of a kept node that are not supported.  Together they amount to all visible
paints of the kept nodes. -/
theorem readDocument_conserves_paints {file : Json} {document : Document}
    (h : readDocument file = .ok document) :
    List.Forall₂ Visit.Draws (keptVisits (visits file)) (Tree.preorderForest document.scene) ∧
      document.tally.warnings = (visits file).flatMap Visit.warnings ∧
      ((Tree.preorderForest document.scene).map (·.style.paintCount)).sum +
          document.tally.warnings.countP isUnsupportedWarning =
        ((keptVisits (visits file)).map fun v ↦ visibleCount v.node).sum := by
  have hyields := readDocument_yields h
  refine ⟨hyields.draws, hyields.warnings, ?_⟩
  rw [hyields.warnings, countP_warnings]
  exact sum_paintCount hyields.draws

/-- A poster with a stroke and fills, of which one is hidden and one is no object.  It holds itself
once more, a label with a shadow and a texture, and a hidden line. -/
def posterInItself : Json :=
  .obj [("children", .arr [.obj [("id", .str "0:1"), ("children", .arr [
    .obj [("id", .str "1:1"), ("type", .str "FRAME"),
      ("strokes", .arr [.obj [("type", .str "IMAGE")]]),
      ("fills", .arr [.obj [("type", .str "SOLID")], .obj [("type", .str "PATTERN")], .int 5,
        .obj [("type", .str "VIDEO"), ("visible", .bool false)], .obj [("type", .str "IMAGE")]]),
      ("children", .arr [
        .obj [("id", .str "1:1"), ("type", .str "FRAME"),
          ("fills", .arr [.obj [("type", .str "SOLID")]])],
        .obj [("id", .str "1:2"), ("type", .str "TEXT"),
          ("effects", .arr [.obj [("type", .str "TEXTURE")], .obj [("type", .str "DROP_SHADOW")]])],
        .obj [("id", .str "1:3"), ("type", .str "LINE"), ("visible", .bool false),
          ("strokes", .arr [.obj [("type", .str "SOLID")]])]])]])]])]

/-- Two fills and the shadow are drawn, and the warning about the poster in itself stands between
those about the poster and the label. -/
theorem readDocument_conserves_paints_poster : ∃ document,
    readDocument posterInItself = .ok document ∧
      document.tally.warnings = ["Unsupported fill type: PATTERN", "Unsupported stroke type: IMAGE",
        "Cycle detected at node 1:1; subtree skipped", "Unsupported effect type: TEXTURE"] ∧
      ((Tree.preorderForest document.scene).map (·.style.paintCount)).sum = 3 := by
  have hok : (readDocument posterInItself).toOption.isSome = true := by decide +kernel
  have hwarnings : (visits posterInItself).flatMap Visit.warnings =
      ["Unsupported fill type: PATTERN", "Unsupported stroke type: IMAGE",
        "Cycle detected at node 1:1; subtree skipped", "Unsupported effect type: TEXTURE"] := by
    decide +kernel
  have hvisible : ((keptVisits (visits posterInItself)).map fun v ↦ visibleCount v.node).sum =
      3 + ((visits posterInItself).flatMap Visit.warnings).countP isUnsupportedWarning := by
    decide +kernel
  cases hdocument : readDocument posterInItself with
  | error fault =>
      rw [hdocument] at hok
      exact Bool.noConfusion hok
  | ok document =>
      obtain ⟨_, htold, hcount⟩ := readDocument_conserves_paints hdocument
      rw [htold, hvisible] at hcount
      exact ⟨document, rfl, htold.trans hwarnings, Nat.add_right_cancel hcount⟩

end Design
end DesignToWeb
