import DesignToWeb.Design.Reading
import DesignToWeb.Json.Label
import DesignToWeb.Layout

/-!
# Layouts of a design

A node that lays out its children is a flow.  Any other node takes part in the
flow of its parent, if there is one and the node does not opt out, or else
stands at a place relative to its parent.
-/

namespace DesignToWeb.Design

def flowDirection? (node : Attributes) : Option FlowDirection :=
  match (node.get "layoutMode").labelOrEmpty with
  | "HORIZONTAL" => some .row
  | "VERTICAL" => some .column
  | _ => none

/-- The placement along the flow. -/
def justify? : String → Option FlowPlacement
  | "MIN" => some .start
  | "CENTER" => some .center
  | "MAX" => some .finish
  | "SPACE_BETWEEN" => some .spaceBetween
  | _ => none

/-- The placement across the flow, where nothing spreads items and stretching comes closest. -/
def align? : String → Option FlowPlacement
  | "MIN" => some .start
  | "CENTER" => some .center
  | "MAX" => some .finish
  | "BASELINE" => some .baseline
  | "SPACE_BETWEEN" => some .stretch
  | _ => none

def boundingBox? (node : Attributes) : Option Attributes :=
  (node.get "absoluteBoundingBox").attributes?

def readPadding (node : Attributes) : Except Fault Padding := do
  return { top := ← (node.get "paddingTop").toNumber
           right := ← (node.get "paddingRight").toNumber
           bottom := ← (node.get "paddingBottom").toNumber
           left := ← (node.get "paddingLeft").toNumber }

/-- The flow of a node; a height of zero is left to the content. -/
def readFlowBox (node : Attributes) (direction : FlowDirection) (width height : Binary64) :
    Except Fault FlowBox := do
  return { direction
           width := .length width
           height := if height.isZero then .auto else .length height
           gap := ← (node.get "itemSpacing").toNumber
           padding := ← readPadding node
           align := align? (node.get "counterAxisAlignItems").labelOrEmpty
           justify := justify? (node.get "primaryAxisAlignItems").labelOrEmpty }

/-- One coordinate of a box relative to the parent's. -/
def relative (key : String) (box parent : Attributes) : Except Fault Binary64 := do
  let own ← (box.get key).toNumber
  let origin ← (parent.get key).toNumber
  return own - origin

/-- The layout of a node, given the box of its parent and whether the parent is a flow. -/
def readLayout (node : Attributes) (parentBox : Option Attributes) (inFlow : Bool) :
    Except Fault Layout := do
  let box := (boundingBox? node).getD .empty
  let width ← (box.get "width").toNumber
  let height ← (box.get "height").toNumber
  match flowDirection? node with
  | some direction => return .flow (← readFlowBox node direction width height)
  | none =>
    if inFlow && !(node.get "layoutPositioning").isStr "ABSOLUTE" then
      return .flowItem width height
    else
      let parent := parentBox.getD .empty
      let x ← relative "x" box parent
      let y ← relative "y" box parent
      return .absolute x y width height

end DesignToWeb.Design
