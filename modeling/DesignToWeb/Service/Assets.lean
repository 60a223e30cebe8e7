import DesignToWeb.Css.Paint
import DesignToWeb.Naming
import DesignToWeb.Service.Renders

/-!
# Asset files

The files behind the addresses in a page and its stylesheet: exported drawings
for elements that markup cannot show, placeholders where the export failed, and
bitmaps for image fills.
-/

namespace DesignToWeb.Service

def placeholderSvg (id : String) : String :=
  "<svg xmlns=\"http://www.w3.org/2000/svg\" width=\"16\" height=\"16\" viewBox=\"0 0 16 16\"" ++
    " role=\"img\" aria-label=\"Missing asset " ++ Naming.safeId id ++ "\">" ++
    "<rect x=\"0.5\" y=\"0.5\" width=\"15\" height=\"15\" rx=\"2\" ry=\"2\" fill=\"none\"" ++
    " stroke=\"#ccc\" stroke-width=\"1\"/>" ++
    "<line x1=\"3\" y1=\"3\" x2=\"13\" y2=\"13\" stroke=\"#ccc\" stroke-width=\"1\"/>" ++
    "<line x1=\"13\" y1=\"3\" x2=\"3\" y2=\"13\" stroke=\"#ccc\" stroke-width=\"1\"/>" ++
    "</svg>"

abbrev AssetPaths := List (String × Path)

def writeRenders (machine : Machine) (dir : Path) : List (String × String) → Action AssetPaths
  | [] => return []
  | (id, data) :: rest => do
    let path := dir ++ [Naming.fallbackAsset id]
    Action.writeData machine path data
    return (id, path) :: (← writeRenders machine dir rest)

/-- Exports nodes as drawings into a directory.  Nodes whose export fails are absent. -/
def exportFallbacks (settings : Settings) (fileKey : String) (nodeIds : List String) (dir : Path)
    (lastModified : Json) : Action AssetPaths := do
  writeRenders settings.machine dir (← exportNodes settings fileKey nodeIds "svg" 1 lastModified)

def fillMissing (dir : Path) (paths : AssetPaths) (ids : List String) (machine : Machine := {}) :
    Action AssetPaths := do
  match ids with
  | [] => return paths
  | id :: rest =>
    if (paths.lookup id).isSome then fillMissing dir paths rest machine
    else
      let path := dir ++ [Naming.fallbackAsset id]
      Action.writeData machine path (placeholderSvg id)
      fillMissing dir (paths ++ [(id, path)]) rest machine

def writeBitmaps (machine : Machine) (dir : Path) (scale : Int) (rendered : List (String × String))
    (assets : List (String × Css.ImageAsset)) :
    List (String × ImageFill) → Action (List (String × Css.ImageAsset))
  | [] => return assets
  | (id, fill) :: rest => do
    match (rendered.lookup id).filter (· != "") with
    | none => writeBitmaps machine dir scale rendered assets rest
    | some data =>
      Action.writeData machine (dir ++ [Naming.bitmapAsset id scale "png"]) data
      writeBitmaps machine dir scale rendered
        (upsert (·.1 == id) (id, ⟨Naming.bitmapAddress id scale, fill.scaleMode⟩) assets) rest

/-- Exports nodes with image fills as bitmaps into a directory, for the stylesheet. -/
def exportBitmaps (settings : Settings) (fileKey : String) (nodes : List (String × ImageFill))
    (dir : Path) (scale : Int) (lastModified : Json) :
    Action (List (String × Css.ImageAsset)) := do
  let rendered ← exportNodes settings fileKey (nodes.map (·.1)) "png" scale lastModified
  writeBitmaps settings.machine dir scale rendered [] nodes

end DesignToWeb.Service
