import DesignToWeb.Proofs.Design.Kept

/-!
# Where nodes are placed

The layout of a node is settled by its own flow, by whether its parent is a flow
and by whether it opts out of that.
-/

namespace DesignToWeb

namespace Layout

def isFlow : Layout → Bool
  | flow _ => true
  | _ => false

def isAbsolute : Layout → Bool
  | absolute _ _ _ _ => true
  | _ => false

def isFlowItem : Layout → Bool
  | flowItem _ _ => true
  | _ => false

end Layout

namespace Design

open Outcome

/-- Whether a node leaves the flow of its parent. -/
def optsOut (node : Attributes) : Bool := (node.get "layoutPositioning").isStr "ABSOLUTE"

/-- What has been decided of a node that has come to a layout. -/
def IsLayoutOf (node : Attributes) (inFlow : Bool) : Layout → Prop
  | .flow box => flowDirection? node = some box.direction
  | .flowItem _ _ => flowDirection? node = none ∧ inFlow = true ∧ optsOut node = false
  | .absolute _ _ _ _ => flowDirection? node = none ∧ (inFlow = false ∨ optsOut node = true)
  | .unplaced => False

/-- The height of the box of a node, zero if there is none. -/
def rawHeight (node : Attributes) : Except Fault Binary64 :=
  (((boundingBox? node).getD .empty).get "height").toNumber

section Readings

variable {node : Attributes} {parentBox : Option Attributes} {inFlow : Bool} {layout : Layout}

theorem readFlowBox_eq_ok {direction : FlowDirection} {width height : Binary64} {box : FlowBox}
    (h : readFlowBox node direction width height = .ok box) :
    box.direction = direction ∧
      box.height = if height.isZero then .auto else .length height := by
  obtain ⟨gap, _, h⟩ := bind_eq_ok.mp h
  obtain ⟨padding, _, h⟩ := bind_eq_ok.mp h
  rw [← pure_eq_ok.mp h]
  exact ⟨rfl, rfl⟩

/-- The flow of the node itself goes before that of its parent, and only what takes part in neither
has a place. -/
theorem readLayout_eq_ok (h : readLayout node parentBox inFlow = .ok layout) :
    ∃ width height, rawHeight node = .ok height ∧
      ((∃ direction box, flowDirection? node = some direction ∧
          readFlowBox node direction width height = .ok box ∧ layout = .flow box) ∨
        (flowDirection? node = none ∧ inFlow = true ∧ optsOut node = false ∧
          layout = .flowItem width height) ∨
        (flowDirection? node = none ∧ (inFlow = false ∨ optsOut node = true) ∧ ∃ x y,
          relative "x" ((boundingBox? node).getD .empty) (parentBox.getD .empty) = .ok x ∧
          relative "y" ((boundingBox? node).getD .empty) (parentBox.getD .empty) = .ok y ∧
          layout = .absolute x y width height)) := by
  unfold readLayout at h
  obtain ⟨width, _, h⟩ := bind_eq_ok.mp h
  obtain ⟨height, hheight, h⟩ := bind_eq_ok.mp h
  refine ⟨width, height, hheight, ?_⟩
  cases hdirection : flowDirection? node with
  | some direction =>
      simp only [hdirection] at h
      obtain ⟨box, hbox, h⟩ := bind_eq_ok.mp h
      exact .inl ⟨direction, box, rfl, hbox, (pure_eq_ok.mp h).symm⟩
  | none =>
      simp only [hdirection] at h
      split at h
      · next hitem =>
          obtain ⟨hflow, hstays⟩ := Bool.and_eq_true_iff.mp hitem
          have hstays : optsOut node = false := by simpa [optsOut] using hstays
          exact .inr (.inl ⟨rfl, hflow, hstays, (pure_eq_ok.mp h).symm⟩)
      · next hitem =>
          obtain ⟨x, hx, h⟩ := bind_eq_ok.mp h
          obtain ⟨y, hy, h⟩ := bind_eq_ok.mp h
          refine .inr (.inr ⟨rfl, ?_, x, y, hx, hy, (pure_eq_ok.mp h).symm⟩)
          cases inFlow with
          | false => exact .inl rfl
          | true =>
              right
              simpa [optsOut] using hitem

theorem isLayoutOf_of_readLayout (h : readLayout node parentBox inFlow = .ok layout) :
    IsLayoutOf node inFlow layout := by
  obtain ⟨width, height, _, ⟨direction, box, hdirection, hbox, rfl⟩ |
    ⟨hdirection, hflow, hstays, rfl⟩ | ⟨hdirection, hleft, x, y, _, _, rfl⟩⟩ := readLayout_eq_ok h
  · rw [← (readFlowBox_eq_ok hbox).1] at hdirection
    exact hdirection
  · exact ⟨hdirection, hflow, hstays⟩
  · exact ⟨hdirection, hleft⟩

end Readings

theorem flowDirection_cases {node : Attributes} {direction : FlowDirection}
    (h : flowDirection? node = some direction) : direction = .row ∨ direction = .column := by
  unfold flowDirection? at h
  split at h
  · exact Or.inl (Option.some.inj h).symm
  · exact Or.inr (Option.some.inj h).symm
  · exact nomatch h

end Design
end DesignToWeb
