import DesignToWeb.Design.Document
import DesignToWeb.Strategy

/-!
# Manifests

A manifest lists the elements of a converted document and counts them.
-/

namespace DesignToWeb

structure StrategyCounts where
  total : Nat
  markup : Nat
  text : Nat
  imageFallback : Nat
deriving DecidableEq

namespace Manifest

def rendererVersion : String := "1.0.0"

def countStrategies (scene : ClassifiedScene) : StrategyCounts :=
  let strategies := scene.elements.map Classified.strategy
  { total := strategies.length
    markup := strategies.count .markup
    text := strategies.count .text
    imageFallback := strategies.count .imageFallback }

def countsJson (counts : StrategyCounts) : Json :=
  .obj [("total", .int counts.total), ("markup", .int counts.markup), ("text", .int counts.text),
    ("imageFallback", .int counts.imageFallback)]

def statsJson (stats : Stats) : Json :=
  .obj [("nodes_total", .int stats.nodesTotal), ("containers", .int stats.containers),
    ("texts", .int stats.texts), ("vectors", .int stats.vectors), ("images", .int stats.images),
    ("gradients", .int stats.gradients), ("masks", .int stats.masks)]

/-- One entry for every element, from the roots down. -/
def nodesJson (scene : ClassifiedScene) : Json :=
  .arr (scene.elements.map fun c ↦
    .obj [("id", .str c.id), ("name", .str c.element.name), ("kind", .str c.element.kind.name),
      ("strategy", .str c.strategy.name)])

/-- The manifest of a file; its name and its time of change are given as they are. -/
def build (fileKey : String) (file : Attributes) (scene : ClassifiedScene) (tally : Tally) : Json :=
  .obj [
    ("meta", .obj [("fileKey", .str fileKey), ("name", file.get "name"),
      ("lastModified", file.get "lastModified"), ("rendererVersion", .str rendererVersion)]),
    ("counts", countsJson (countStrategies scene)),
    ("stats", statsJson tally.stats),
    ("warnings", .arr (tally.warnings.map .str)),
    ("nodes", nodesJson scene)]

end Manifest
end DesignToWeb
