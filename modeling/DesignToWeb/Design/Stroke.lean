import DesignToWeb.Design.Fill
import DesignToWeb.Design.Reading
import DesignToWeb.Json.Label

/-!
# Strokes of a design

A stroke takes its weight, its place on the outline and its dashes from its own
paint, and from its node where the paint is silent.
-/

namespace DesignToWeb.Design

/-- A stroke whose place is not known lies on the outline. -/
def readStrokeAlign (node paint : Attributes) : StrokeAlign :=
  let own := (paint.get "alignment").labelOrEmpty
  let name := if own != "" then own else (node.get "strokeAlign").labelOr "CENTER"
  match StrokeAlign.ofName name with
  | .other _ => .center
  | align => align

def strokeWeight (node paint : Attributes) : Json :=
  ((paint.get? "weight").orElse fun _ ↦ paint.get? "strokeWeight").getD (node.get "strokeWeight")

def strokeDashes (node paint : Attributes) : List Json :=
  match paint.get "dashPattern" with
  | .arr dashes => dashes
  | _ => (node.get "strokeDashes").items

def gradientTypes : List String :=
  ["GRADIENT_LINEAR", "GRADIENT_RADIAL", "GRADIENT_ANGULAR", "GRADIENT_CONIC", "GRADIENT_DIAMOND"]

def readStroke (node paint : Attributes) : Except Fault (Reading Stroke) := do
  let width ← (strokeWeight node paint).toNumberOr 1
  let align := readStrokeAlign node paint
  let dashes ← (strokeDashes node paint).mapM Json.toNumber
  let kind := (paint.get "type").labelOrEmpty
  if kind = "SOLID" then
    return .drawn { paint := .solid (some (← readOwnColor paint)), align, width, dashes }
  else if gradientTypes.contains kind then
    let stops ← readStops (paint.get "gradientStops")
    return .drawn { paint := .gradient stops (some (← readHeading paint)), align, width, dashes }
  else
    return .unsupported ("Unsupported stroke type: " ++ kind)

def readStrokes (node : Attributes) : Except Fault (Readings Stroke) :=
  readVisible (readStroke node) (node.get "strokes").objects

end DesignToWeb.Design
