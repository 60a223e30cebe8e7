import DesignToWeb.Element
import DesignToWeb.Text.Character
import DesignToWeb.Text.Sorted

/-!
# Strategies

How each element is rendered: as markup, as live text, or as an exported image
when its style crosses a boundary of what markup can show.  The decision looks
at the element alone, never at its parent or at what is below it.
-/

namespace DesignToWeb

inductive Strategy where
  | text
  | markup
  | imageFallback
deriving DecidableEq

namespace Strategy

def name : Strategy → String
  | text => "text"
  | markup => "markup"
  | imageFallback => "image-fallback"

def ofName? : String → Option Strategy
  | "text" => some text
  | "markup" => some markup
  | "image-fallback" => some imageFallback
  | _ => none

end Strategy

structure Policy where
  /-- Text that crosses a boundary is exported as an image too. -/
  downgradeText : Bool := true
  /-- Only solid fills are rendered as markup. -/
  strictFills : Bool := false
deriving DecidableEq

/-- The boundaries of what markup can show, in the order in which they are tried. -/
inductive Boundary where
  | mask
  | stroke
  | fill
  | blend
  | effect
deriving DecidableEq

def Boundary.name : Boundary → String
  | mask => "mask"
  | stroke => "stroke"
  | fill => "fill"
  | blend => "blend"
  | effect => "effect"

namespace Style

def isPlainStroke (stroke : Stroke) : Bool :=
  match stroke.paint with
  | .solid _ => stroke.align == .center && stroke.dashes.isEmpty
  | .gradient _ _ => false

/-- More than one stroke, or one that is no plain solid line on the outline. -/
def strokesCross (s : Style) : Bool :=
  match s.strokes with
  | [] => false
  | [stroke] => !isPlainStroke stroke
  | _ => true

def fillsCross (policy : Policy) (s : Style) : Bool :=
  policy.strictFills && s.fills.any (!·.isSolid)

/-- A blend mode as it is compared: in small letters, with hyphens. -/
def blendWord (mode : String) : String :=
  String.ofList ((Text.lowerAscii mode).toList.map fun c ↦ if c = '_' then '-' else c)

/-- A blend mode other than the two that leave everything as it is. -/
def blendCrosses (s : Style) : Bool :=
  match s.blendMode with
  | none => false
  | some mode => mode != "" && !(["normal", "pass-through"].contains (blendWord mode))

/-- More than one shadow, or a blur. -/
def effectsCross (s : Style) : Bool :=
  1 < (s.effects.filterMap Effect.shadow?).length || s.effects.any Effect.isBlur

def boundary? (policy : Policy) (s : Style) : Option Boundary :=
  if s.isMask then some .mask
  else if s.strokesCross then some .stroke
  else if s.fillsCross policy then some .fill
  else if s.blendCrosses then some .blend
  else if s.effectsCross then some .effect
  else none

end Style

def strategyOf (policy : Policy) (kind : NodeKind) (style : Style) : Strategy :=
  let crosses := (style.boundary? policy).isSome
  if kind = .text then
    if crosses && policy.downgradeText then .imageFallback else .text
  else if crosses then .imageFallback else .markup

/-- An element together with the way in which it is rendered. -/
structure Classified where
  element : Element
  strategy : Strategy
deriving DecidableEq

def Classified.id (c : Classified) : String := c.element.id

abbrev ClassifiedScene := List (Tree Classified)

def Element.classify (policy : Policy) (e : Element) : Classified :=
  ⟨e, strategyOf policy e.kind e.style⟩

def Scene.classify (policy : Policy) (scene : Scene) : ClassifiedScene :=
  Tree.mapForest (Element.classify policy) scene

namespace ClassifiedScene

def elements (scene : ClassifiedScene) : List Classified := Tree.preorderForest scene

/-- The ids of all elements that need an exported image, sorted, each once. -/
def fallbackIds (scene : ClassifiedScene) : List String :=
  Text.sortedDistinct
    ((scene.elements.filter (·.strategy == .imageFallback)).map Classified.id)

/-- The image that an element shows behind its markup. -/
def bitmapOf? (c : Classified) : Option (String × ImageFill) :=
  if c.strategy = .markup then
    (c.element.style.firstImage?.filter (·.imageRef != "")).map (c.id, ·)
  else none

/-- The elements that need a bitmap for an image fill, with that fill. -/
def imageFillNodes (scene : ClassifiedScene) : List (String × ImageFill) :=
  scene.elements.filterMap bitmapOf?

end ClassifiedScene
end DesignToWeb
