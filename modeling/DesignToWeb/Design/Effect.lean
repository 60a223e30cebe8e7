import DesignToWeb.Design.Reading
import DesignToWeb.Json.Label

/-!
# Effects and corners of a design
-/

namespace DesignToWeb.Design

def readShadow (inset : Bool) (effect : Attributes) : Except Fault Shadow := do
  let offset := (effect.get "offset").attributes
  return { inset
           x := ← (offset.get "x").toNumber
           y := ← (offset.get "y").toNumber
           blur := ← (effect.get "radius").toNumber
           spread := ← (effect.get "spread").toNumber
           color := some (← readOwnColor effect) }

def readEffect (effect : Attributes) : Except Fault (Reading Effect) := do
  match (effect.get "type").labelOrEmpty with
  | "DROP_SHADOW" => return .drawn (.shadow (← readShadow false effect))
  | "INNER_SHADOW" => return .drawn (.shadow (← readShadow true effect))
  | "LAYER_BLUR" => return .drawn (.blur .layer (← (effect.get "radius").toNumber))
  | "BACKGROUND_BLUR" => return .drawn (.blur .background (← (effect.get "radius").toNumber))
  | kind => return .unsupported ("Unsupported effect type: " ++ kind)

def readEffects (effects : List Attributes) : Except Fault (Readings Effect) :=
  readVisible readEffect effects

def readUniformRadius? : Json → Except Fault (Option Binary64)
  | .int n => some <$> Binary64.ofIntChecked n
  | .float x => .ok (if x.isFinite then some x else none)
  | _ => .ok none

/-- The radii corner by corner; missing ones are zero, and four zeros are no radius. -/
def readCorners (radii : List Json) : Except Fault (Option CornerRadius) := do
  let corner (i : Nat) := (radii.getD i (.int 0)).toNumber
  let topLeft ← corner 0
  let topRight ← corner 1
  let bottomRight ← corner 2
  let bottomLeft ← corner 3
  if [topLeft, topRight, bottomRight, bottomLeft].all Binary64.isZero then return none
  else return some (.corners topLeft topRight bottomRight bottomLeft)

def readCornerRadius (node : Attributes) : Except Fault (Option CornerRadius) := do
  match ← readUniformRadius? (node.get "cornerRadius") with
  | some radius => return some (.uniform radius)
  | none => readCorners (node.get "rectangleCornerRadii").items

end DesignToWeb.Design
