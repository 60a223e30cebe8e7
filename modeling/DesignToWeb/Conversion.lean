import DesignToWeb.Css.Stylesheet
import DesignToWeb.Design.Document
import DesignToWeb.Html.Markup

/-!
# Conversions

A document is read and classified, and then emitted as a page and a stylesheet.
The two steps are apart because the files that the stylesheet points at are made
in between.
-/

namespace DesignToWeb

structure ClassifiedDocument where
  scene : ClassifiedScene
  tally : Tally

namespace ClassifiedDocument

def fallbackIds (d : ClassifiedDocument) : List String := d.scene.fallbackIds

def imageFillNodes (d : ClassifiedDocument) : List (String × ImageFill) := d.scene.imageFillNodes

end ClassifiedDocument

def classifyDocument (policy : Policy) (file : Json) : Except Fault ClassifiedDocument := do
  let document ← Design.readDocument file
  return ⟨Scene.classify policy document.scene, document.tally⟩

structure Emission where
  html : String
  css : String

def emit (title : String) (assets : Css.ImageAssets) (document : ClassifiedDocument) :
    Except Fault Emission := do
  return ⟨Html.page title document.scene, ← Css.stylesheet assets document.scene⟩

end DesignToWeb
