import DesignToWeb.Design.Reading
import DesignToWeb.Heading
import DesignToWeb.Json.Label

/-!
# Fills of a design

A gradient gives its direction by a transform, a matrix of two rows, or by
handles, of which the first two are where it starts and where it ends.
-/

namespace DesignToWeb.Design

/-! ## Directions of gradients -/

/-- The vector between two handles; coordinates that are missing are zero. -/
def readHandles (start stop : Attributes) : Except Fault (Binary64 × Binary64) := do
  let x ← (stop.get "x").toNumber
  let x₀ ← (start.get "x").toNumber
  let y ← (stop.get "y").toNumber
  let y₀ ← (start.get "y").toNumber
  return (x - x₀, y - y₀)

/-- The direction of a gradient: the first column of its transform, else the vector between its
handles, else none. -/
def readDirection (paint : Attributes) : Except Fault (Binary64 × Binary64) :=
  match paint.get "gradientTransform" with
  | .arr (.arr (dx :: _) :: .arr (dy :: _) :: _) => do return (← dx.toNumber, ← dy.toNumber)
  | _ =>
    match paint.get "gradientHandlePositions" with
    | .arr (start :: stop :: _) => readHandles start.attributes stop.attributes
    | _ => .ok (0, 0)

def readHeading (paint : Attributes) : Except Fault Binary64 := do
  let (dx, dy) ← readDirection paint
  return heading dx dy

/-! ## Fills -/

/-- The scale mode of an image, which fills its box when no known mode is named. -/
def readScaleMode : Json → Except Fault ScaleMode
  | .str s =>
    match ScaleMode.ofName s with
    | .other _ => .ok .fill
    | mode => .ok mode
  | .arr items => .error (.compoundName (.arr items))
  | .obj fields => .error (.compoundName (.obj fields))
  | _ => .ok .fill

def readFill (paint : Attributes) : Except Fault (Reading Fill) := do
  match (paint.get "type").labelOrEmpty with
  | "SOLID" => return .drawn (.solid (← readOwnColor paint))
  | "GRADIENT_LINEAR" =>
    return .drawn (.linear (← readStops (paint.get "gradientStops")) (← readHeading paint))
  | "GRADIENT_RADIAL" => return .drawn (.radial (← readStops (paint.get "gradientStops")))
  | "GRADIENT_ANGULAR" | "GRADIENT_CONIC" =>
    return .drawn (.conic (← readStops (paint.get "gradientStops")) (← readHeading paint))
  | "IMAGE" =>
    return .drawn (.image ⟨(paint.get "imageRef").labelOrEmpty,
      ← readScaleMode (paint.get "scaleMode")⟩)
  | kind => return .unsupported ("Unsupported fill type: " ++ kind)

def readFills (paints : List Attributes) : Except Fault (Readings Fill) :=
  readVisible readFill paints

def hasImageFill (paints : List Attributes) : Bool :=
  paints.any fun paint ↦ (paint.get "type").isStr "IMAGE" && isVisible paint

end DesignToWeb.Design
