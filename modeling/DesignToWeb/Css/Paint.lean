import DesignToWeb.Css.Declaration
import DesignToWeb.Style

/-!
# Paints in a stylesheet

Colours, backgrounds, borders, shadows, opacity and corners.
-/

namespace DesignToWeb.Css

/-! ## Colours -/

/-- A channel from zero to one as a whole number up to 255, a half rounded up. -/
def channel (x : Binary64) : Except Fault Int := do
  let n ← (x.clampUnit * 255 + .ofDecimal false 5 (-1)).toInt
  return max 0 (min 255 n)

def rgba (c : RGBA) : Except Fault String := do
  let red ← channel c.red
  let green ← channel c.green
  let blue ← channel c.blue
  let alpha ← number c.alpha.clampUnit
  return "rgba(" ++ ",".intercalate [toString red, toString green, toString blue, alpha] ++ ")"

/-! ## Backgrounds -/

def gradientStop (stop : ColorStop) : Except Fault String := do
  let color ← rgba stop.color
  let position ← number ((stop.position * 100).roundPlaces 1)
  return color ++ " " ++ position ++ "%"

def gradientStops (stops : List ColorStop) : Except Fault String := do
  return ", ".intercalate (← stops.mapM gradientStop)

inductive Layer where
  | color (value : String)
  | gradient (value : String)
deriving DecidableEq

def Layer.text : Layer → String
  | color value => value
  | gradient value => value

/-- The layer for a fill; an image has none here, as its file comes separately.  A radial gradient
is a circle around the centre. -/
def fillLayer : Fill → Except Fault (Option Layer)
  | .solid color => do return some (.color (← rgba color))
  | .linear stops heading => do
    let angle ← number heading
    return some (.gradient
      ("linear-gradient(" ++ angle ++ "deg, " ++ (← gradientStops stops) ++ ")"))
  | .radial stops => do
    return some (.gradient
      ("radial-gradient(circle at center, " ++ (← gradientStops stops) ++ ")"))
  | .conic stops heading => do
    let angle ← number heading
    return some (.gradient
      ("conic-gradient(from " ++ angle ++ "deg at 50% 50%, " ++ (← gradientStops stops) ++ ")"))
  | .image _ => .ok none

/-- The layers of a background.  A design paints its last fill on top, a stylesheet its first
layer. -/
def backgroundLayers (fills : List Fill) : Except Fault (List Layer) := do
  return (← fills.reverse.mapM fillLayer).filterMap id

def background (fills : List Fill) : Except Fault (List Declaration) := do
  let layers ← backgroundLayers fills
  return if layers.isEmpty then [] else [⟨.background, ",".intercalate (layers.map Layer.text)⟩]

/-- Text takes the colour of its first solid fill. -/
def textColor (fills : List Fill) : Except Fault (List Declaration) :=
  match fills.findSome? Fill.color? with
  | some color => do return [⟨.color, ← rgba color⟩]
  | none => .ok []

/-! ## Images -/

structure ImageAsset where
  address : String
  scaleMode : ScaleMode := .fill
deriving DecidableEq

def centered : List Declaration :=
  [⟨.backgroundPosition, "center"⟩, ⟨.backgroundRepeat, "no-repeat"⟩]

/-- A mode that is not known fills the box, and a crop does so as nearly as it can. -/
def scaleModeRules : ScaleMode → List Declaration
  | .fill | .other _ => centered ++ [⟨.backgroundSize, "cover"⟩]
  | .fit => centered ++ [⟨.backgroundSize, "contain"⟩]
  | .tile => [⟨.backgroundRepeat, "repeat"⟩, ⟨.backgroundSize, "auto"⟩]
  | .crop => centered ++ [⟨.backgroundSize, "cover"⟩, ⟨.overflow, "hidden"⟩]

def imageRules : Option ImageAsset → List Declaration
  | none => []
  | some asset =>
    ⟨.backgroundImage, "url(\"" ++ asset.address ++ "\")"⟩ :: scaleModeRules asset.scaleMode

/-! ## Strokes and shadows -/

/-- The only stroke and its colour, if it is solid and has no dashes; nothing else is drawn. -/
def drawnStroke? : List Stroke → Option (Stroke × RGBA)
  | [stroke] =>
    match stroke.paint with
    | .solid (some color) => if stroke.dashes.isEmpty then some (stroke, color) else none
    | _ => none
  | _ => none

/-- A stroke on the outline is a border. -/
def border (strokes : List Stroke) : Except Fault (List Declaration) :=
  match drawnStroke? strokes with
  | some (stroke, color) =>
    if stroke.align = .center then do
      let width ← pixels stroke.width
      return [⟨.border, width ++ " solid " ++ (← rgba color)⟩]
    else .ok []
  | none => .ok []

/-- What stands before the ring of a stroke beside the outline. -/
def ringStart? : StrokeAlign → Option String
  | .inside => some "inset 0 0 0 "
  | .outside => some "0 0 0 "
  | _ => none

/-- A stroke beside the outline is a shadow without blur, inside or outside the box. -/
def ring? (strokes : List Stroke) : Except Fault (Option String) :=
  match drawnStroke? strokes with
  | some (stroke, color) =>
    match ringStart? stroke.align with
    | some start => do
      let width ← pixels stroke.width
      return some (start ++ width ++ " " ++ (← rgba color))
    | none => .ok none
  | none => .ok none

def defaultShadowColor : String := "rgba(0,0,0,0.25)"

def shadow (s : Shadow) : Except Fault String := do
  let color ← match s.color with
    | some color => rgba color
    | none => pure defaultShadowColor
  let x ← pixels s.x
  let y ← pixels s.y
  let blur ← pixels s.blur
  let spread ← pixels s.spread
  return " ".intercalate [x, y, blur, spread, color] ++ if s.inset then " inset" else ""

/-- The ring of a stroke and all shadows share one declaration. -/
def boxShadow (effects : List Effect) (strokes : List Stroke) :
    Except Fault (List Declaration) := do
  let ring ← ring? strokes
  let shadows ← (effects.filterMap Effect.shadow?).mapM shadow
  let all := ring.toList ++ shadows
  return if all.isEmpty then [] else [⟨.boxShadow, ",".intercalate all⟩]

/-! ## Opacity and corners -/

def opacity (x : Binary64) : Except Fault (List Declaration) := do
  if x.lt 1 then return [⟨.opacity, ← number x.clampUnit⟩] else return []

def cornerRadius : Option CornerRadius → Except Fault (List Declaration)
  | none => .ok []
  | some (.uniform radius) => do return [⟨.borderRadius, ← pixels radius⟩]
  | some (.corners topLeft topRight bottomRight bottomLeft) => do
    let radii ← [topLeft, topRight, bottomRight, bottomLeft].mapM pixels
    return [⟨.borderRadius, " ".intercalate radii⟩]

end DesignToWeb.Css
