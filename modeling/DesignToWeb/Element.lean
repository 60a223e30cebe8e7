import DesignToWeb.Layout
import DesignToWeb.Style
import DesignToWeb.Tree

/-!
# Scenes

A scene is a forest of elements, each with its kind, layout and style.  It is
what a design document amounts to once everything malformed is settled.
-/

namespace DesignToWeb

inductive NodeKind where
  | container
  | text
  | vector
  | image
deriving DecidableEq

namespace NodeKind

def name : NodeKind → String
  | container => "container"
  | text => "text"
  | vector => "vector"
  | image => "image"

def ofName? : String → Option NodeKind
  | "container" => some container
  | "text" => some text
  | "vector" => some vector
  | "image" => some image
  | _ => none

end NodeKind

/-- A piece of text with the type and colour in which it differs from its element. -/
structure TextRun where
  text : String
  typography : Option Typography := none
  color : Option RGBA := none
deriving DecidableEq

def TextRun.isStyled (run : TextRun) : Bool := run.typography.isSome || run.color.isSome

structure Element where
  id : String
  name : String
  kind : NodeKind
  layout : Layout
  style : Style
  text : Option String := none
  runs : List TextRun := []
deriving DecidableEq

/-- Whether a run differs from the style of the element, be it a single run over the whole
text. -/
def Element.hasStyledRuns (e : Element) : Bool := e.runs.any TextRun.isStyled

abbrev Scene := List (Tree Element)

end DesignToWeb
