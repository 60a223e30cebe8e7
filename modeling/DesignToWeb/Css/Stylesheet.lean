import DesignToWeb.Css.Layout
import DesignToWeb.Css.Typography
import DesignToWeb.Naming
import DesignToWeb.Strategy

/-!
# Stylesheets

One block for every element that has declarations, in the order of the scene,
each followed by the blocks of its runs.
-/

namespace DesignToWeb.Css

abbrev ImageAssets := List (String × ImageAsset)

/-- The paints of an element: text takes a colour, markup a background. -/
def fillRules (c : Classified) (asset : Option ImageAsset) : Except Fault (List Declaration) :=
  if c.strategy = .text then textColor c.element.style.fills
  else do return (← background c.element.style.fills) ++ imageRules asset

/-- Live text keeps the line breaks and spaces of the design. -/
def liveTextRules (c : Classified) : Except Fault (List Declaration) :=
  match c.strategy, c.element.style.typography with
  | .text, some typography => do
    return (← typographyRules typography) ++ [⟨.whiteSpace, "pre-wrap"⟩]
  | _, _ => .ok []

/-- The declarations of an element.  An exported image is the only visual of its element, which
keeps no more than its layout. -/
def elementRules (c : Classified) (asset : Option ImageAsset) :
    Except Fault (List Declaration) := do
  let layout := (← layoutRules c.element.layout).flatten
  if c.strategy = .imageFallback then return layout
  let style := c.element.style
  let fills ← fillRules c asset
  let border ← border style.strokes
  let shadows ← boxShadow style.effects style.strokes
  let opacity ← opacity style.opacity
  let corners ← cornerRadius style.cornerRadius
  let typography ← liveTextRules c
  return layout ++ fills ++ border ++ shadows ++ opacity ++ corners ++ typography

structure Block where
  selector : String
  declarations : List Declaration
deriving DecidableEq

def Block.text (b : Block) : String :=
  "." ++ b.selector ++ "\x7b" ++ declarationsText b.declarations ++ "\x7d"

def block? (selector : String) (declarations : List Declaration) : Option Block :=
  if declarations.isEmpty then none else some ⟨selector, declarations⟩

def runBlocks (c : Classified) : Except Fault (List Block) :=
  if c.strategy = .text ∧ c.element.hasStyledRuns then do
    let blocks ← c.element.runs.zipIdx.mapM fun (run, i) ↦ do
      return block? (Naming.spanClass c.id i) (← runRules run c.element.style.typography)
    return blocks.filterMap id
  else .ok []

def elementBlocks (assets : ImageAssets) (c : Classified) : Except Fault (List Block) := do
  let own := block? (Naming.cssClass c.id) (← elementRules c (assets.lookup c.id))
  return own.toList ++ (← runBlocks c)

def blocks (assets : ImageAssets) (scene : ClassifiedScene) : Except Fault (List Block) := do
  return (← scene.elements.mapM (elementBlocks assets)).flatten

def rootRule : String := ":root\x7bcolor-scheme:light;\x7d"

/-- The stylesheet of a scene, one block on a line. -/
def stylesheet (assets : ImageAssets) (scene : ClassifiedScene) : Except Fault String := do
  return "\n".intercalate (rootRule :: (← blocks assets scene).map Block.text)

end DesignToWeb.Css
