import DesignToWeb.Design.Effect
import DesignToWeb.Design.Fill
import DesignToWeb.Design.Layout
import DesignToWeb.Design.Stroke
import DesignToWeb.Design.Typography

/-!
# Nodes of a design

One node of a design becomes one element of the scene, or nothing when its type
cannot be rendered.
-/

namespace DesignToWeb.Design

def kindOfType? : String → Option NodeKind
  | "FRAME" | "GROUP" | "COMPONENT" | "COMPONENT_SET" | "INSTANCE" | "SECTION" => some .container
  | "TEXT" => some .text
  | "VECTOR" | "LINE" | "ELLIPSE" | "REGULAR_POLYGON" | "STAR" | "BOOLEAN_OPERATION" =>
    some .vector
  | _ => none

/-- The kind of a node; a rectangle with a visible image is an image. -/
def kind? (node : Attributes) : Option NodeKind :=
  match (node.get "type").labelOrEmpty with
  | "RECTANGLE" =>
    some (if hasImageFill (node.get "fills").objects then .image else .container)
  | type => kindOfType? type

/-- The style of a node and the warnings about its fills, then its strokes, then its effects. -/
def readStyle (node : Attributes) (kind : NodeKind) : Except Fault (Style × List String) := do
  let fills ← readFills (node.get "fills").objects
  let strokes ← readStrokes node
  let effects ← readEffects (node.get "effects").objects
  let cornerRadius ← readCornerRadius node
  let typography ←
    if kind = .text then some <$> readTypography (node.get "style").attributes {} else pure none
  let opacity ← (node.get "opacity").toNumberOr 1
  let blendMode := node.get "blendMode"
  return ({ fills := fills.items
            strokes := strokes.items
            effects := effects.items
            cornerRadius
            typography
            opacity := opacity.clampUnit
            blendMode := if blendMode.isGiven then some blendMode.label else none
            isMask := (node.get "isMask").isGiven },
    fills.warnings ++ strokes.warnings ++ effects.warnings)

def readText (node : Attributes) (kind : NodeKind) (typography : Option Typography) :
    Except Fault (Option String × List TextRun) := do
  if kind = .text then
    return (some (characters node), ← readRuns node (typography.getD {}))
  else return (none, [])

/-- The element for a node and the warnings about it, given the box of its parent and whether the
parent is a flow. -/
def readElement? (node : Attributes) (parentBox : Option Attributes) (inFlow : Bool) :
    Except Fault (Option (Element × List String)) := do
  match kind? node with
  | none => return none
  | some kind =>
    let (style, warnings) ← readStyle node kind
    let (text, runs) ← readText node kind style.typography
    let layout ← readLayout node parentBox inFlow
    return some ({ id := (node.get "id").labelOrEmpty
                   name := (node.get "name").labelOrEmpty
                   kind, layout, style, text, runs }, warnings)

end DesignToWeb.Design
