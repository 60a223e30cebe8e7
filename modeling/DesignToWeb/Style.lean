import DesignToWeb.Binary64.Basic

/-!
# Styles

How an element of a scene is painted: its fills, strokes and effects, the
corners, the type and the blending.
-/

namespace DesignToWeb

/-! ## Colours and fills -/

/-- A colour with channels from zero to one. -/
structure RGBA where
  red : Binary64
  green : Binary64
  blue : Binary64
  alpha : Binary64 := 1
deriving DecidableEq

structure ColorStop where
  position : Binary64
  color : RGBA
deriving DecidableEq

/-- How an image fills its box.  Names beyond the known ones are kept as they are. -/
inductive ScaleMode where
  | fill
  | fit
  | tile
  | crop
  | other (name : String)
deriving DecidableEq

namespace ScaleMode

def ofName : String → ScaleMode
  | "FILL" => fill
  | "FIT" => fit
  | "TILE" => tile
  | "CROP" => crop
  | name => other name

def name : ScaleMode → String
  | fill => "FILL"
  | fit => "FIT"
  | tile => "TILE"
  | crop => "CROP"
  | other name => name

end ScaleMode

structure ImageFill where
  imageRef : String
  scaleMode : ScaleMode := .fill
deriving DecidableEq

inductive Fill where
  | solid (color : RGBA)
  | linear (stops : List ColorStop) (heading : Binary64)
  | radial (stops : List ColorStop)
  | conic (stops : List ColorStop) (heading : Binary64)
  | image (image : ImageFill)
deriving DecidableEq

namespace Fill

def isGradient : Fill → Bool
  | linear _ _ => true
  | radial _ => true
  | conic _ _ => true
  | _ => false

def isSolid : Fill → Bool
  | solid _ => true
  | _ => false

def image? : Fill → Option ImageFill
  | image i => some i
  | _ => none

def color? : Fill → Option RGBA
  | solid color => some color
  | _ => none

end Fill

/-! ## Strokes -/

/-- Where a stroke lies on the outline.  Names beyond the known ones are kept as they are. -/
inductive StrokeAlign where
  | center
  | inside
  | outside
  | other (name : String)
deriving DecidableEq

namespace StrokeAlign

def ofName : String → StrokeAlign
  | "CENTER" => center
  | "INSIDE" => inside
  | "OUTSIDE" => outside
  | name => other name

def name : StrokeAlign → String
  | center => "CENTER"
  | inside => "INSIDE"
  | outside => "OUTSIDE"
  | other name => name

end StrokeAlign

inductive StrokePaint where
  | solid (color : Option RGBA)
  | gradient (stops : List ColorStop) (heading : Option Binary64)
deriving DecidableEq

structure Stroke where
  paint : StrokePaint
  align : StrokeAlign
  width : Binary64
  dashes : List Binary64 := []
deriving DecidableEq

/-! ## Effects -/

structure Shadow where
  inset : Bool
  x : Binary64 := 0
  y : Binary64 := 0
  blur : Binary64 := 0
  spread : Binary64 := 0
  color : Option RGBA := none
deriving DecidableEq

inductive BlurScope where
  | layer
  | background
deriving DecidableEq

inductive Effect where
  | shadow (shadow : Shadow)
  | blur (scope : BlurScope) (radius : Binary64)
deriving DecidableEq

namespace Effect

def shadow? : Effect → Option Shadow
  | shadow s => some s
  | _ => none

def isBlur : Effect → Bool
  | blur _ _ => true
  | _ => false

end Effect

/-! ## Corners and type -/

inductive CornerRadius where
  | uniform (radius : Binary64)
  | corners (topLeft topRight bottomRight bottomLeft : Binary64)
deriving DecidableEq

structure Typography where
  fontFamily : String := "system-ui"
  fontSize : Binary64 := 14
  fontWeight : Option Binary64 := none
  lineHeight : Option Binary64 := none
  letterSpacing : Option Binary64 := none
  textCase : String := "ORIGINAL"
  textDecoration : String := "NONE"
  textAlign : String := "LEFT"
deriving DecidableEq

/-! ## Styles -/

structure Style where
  fills : List Fill := []
  strokes : List Stroke := []
  effects : List Effect := []
  cornerRadius : Option CornerRadius := none
  typography : Option Typography := none
  opacity : Binary64 := 1
  blendMode : Option String := none
  isMask : Bool := false
deriving DecidableEq

namespace Style

def hasGradient (s : Style) : Bool := s.fills.any Fill.isGradient

def firstImage? (s : Style) : Option ImageFill := s.fills.findSome? Fill.image?

end Style
end DesignToWeb
