import DesignToWeb.Css.Declaration
import DesignToWeb.Layout

/-!
# Layouts in a stylesheet
-/

namespace DesignToWeb.Css

def placement : FlowPlacement → String
  | .start => "flex-start"
  | .center => "center"
  | .finish => "flex-end"
  | .spaceBetween => "space-between"
  | .stretch => "stretch"
  | .baseline => "baseline"

def extent : Extent → Except Fault String
  | .auto => .ok "auto"
  | .length x => pixels x

def sizes (width height : Binary64) : Except Fault (List (List Declaration)) := do
  return [[⟨.width, ← pixels width⟩], [⟨.height, ← pixels height⟩]]

/-- A flow is the containing block of the children that opt out of it, hence its position. -/
def flowRules (box : FlowBox) : Except Fault (List (List Declaration)) := do
  let gap ← pixels box.gap
  let top ← pixels box.padding.top
  let right ← pixels box.padding.right
  let bottom ← pixels box.padding.bottom
  let left ← pixels box.padding.left
  let width ← extent box.width
  let height ← extent box.height
  return [[⟨.display, "flex"⟩],
      [⟨.flexDirection, box.direction.name⟩],
      [⟨.gap, gap⟩],
      [⟨.padding, " ".intercalate [top, right, bottom, left]⟩]] ++
    (box.align.map fun p ↦ [⟨.alignItems, placement p⟩]).toList ++
    (box.justify.map fun p ↦ [⟨.justifyContent, placement p⟩]).toList ++
    [[⟨.width, width⟩], [⟨.height, height⟩], [⟨.position, "relative"⟩]]

/-- The declarations of a layout, grouped as they are written together. -/
def layoutRules : Layout → Except Fault (List (List Declaration))
  | .flow box => flowRules box
  | .flowItem width height => sizes width height
  | .absolute x y width height => do
    let place : List Declaration :=
      [⟨.position, "absolute"⟩, ⟨.left, ← pixels x⟩, ⟨.top, ← pixels y⟩]
    return place :: (← sizes width height)
  | .unplaced => .ok []

end DesignToWeb.Css
