import DesignToWeb.Binary64.Shortest
import DesignToWeb.Fault

/-!
# Declarations

A declaration is a property and the text of its value.  A number in a value is
rounded to three decimals and written without a point when that leaves a whole
number.
-/

namespace DesignToWeb.Css

inductive Property where
  | alignItems
  | background
  | backgroundImage
  | backgroundPosition
  | backgroundRepeat
  | backgroundSize
  | border
  | borderRadius
  | boxShadow
  | color
  | display
  | flexDirection
  | fontFamily
  | fontSize
  | fontWeight
  | gap
  | height
  | justifyContent
  | left
  | letterSpacing
  | lineHeight
  | opacity
  | overflow
  | padding
  | position
  | textAlign
  | textDecoration
  | textTransform
  | top
  | whiteSpace
  | width
deriving DecidableEq

def Property.name : Property → String
  | alignItems => "align-items"
  | background => "background"
  | backgroundImage => "background-image"
  | backgroundPosition => "background-position"
  | backgroundRepeat => "background-repeat"
  | backgroundSize => "background-size"
  | border => "border"
  | borderRadius => "border-radius"
  | boxShadow => "box-shadow"
  | color => "color"
  | display => "display"
  | flexDirection => "flex-direction"
  | fontFamily => "font-family"
  | fontSize => "font-size"
  | fontWeight => "font-weight"
  | gap => "gap"
  | height => "height"
  | justifyContent => "justify-content"
  | left => "left"
  | letterSpacing => "letter-spacing"
  | lineHeight => "line-height"
  | opacity => "opacity"
  | overflow => "overflow"
  | padding => "padding"
  | position => "position"
  | textAlign => "text-align"
  | textDecoration => "text-decoration"
  | textTransform => "text-transform"
  | top => "top"
  | whiteSpace => "white-space"
  | width => "width"

structure Declaration where
  property : Property
  value : String
deriving DecidableEq

def Declaration.text (d : Declaration) : String := d.property.name ++ ":" ++ d.value ++ ";"

def declarationsText (ds : List Declaration) : String := String.join (ds.map Declaration.text)

/-! ## Numbers -/

def number (x : Binary64) : Except Fault String := do
  let rounded := x.roundPlaces 3
  let whole ← rounded.toInt
  return if rounded.isWhole then toString whole else rounded.text

def pixels (x : Binary64) : Except Fault String := do
  return (← number x) ++ "px"

end DesignToWeb.Css
