import DesignToWeb.Design.Element

/-!
# Design documents

A document is a list of pages, and a page a list of nodes with nodes below
them.  It is read into a scene: hidden nodes and nodes that are never painted
are passed over, and a node whose type cannot be rendered goes with all that is
below it.  Every visit returns its own tally, and the tallies are added up in
the order of the visits.
-/

namespace DesignToWeb

/-- How many nodes were visited, and how many elements of each sort they came to. -/
structure Stats where
  nodesTotal : Nat := 0
  containers : Nat := 0
  texts : Nat := 0
  vectors : Nat := 0
  images : Nat := 0
  gradients : Nat := 0
  masks : Nat := 0
deriving DecidableEq

instance : Add Stats where
  add s t :=
    { nodesTotal := s.nodesTotal + t.nodesTotal
      containers := s.containers + t.containers
      texts := s.texts + t.texts
      vectors := s.vectors + t.vectors
      images := s.images + t.images
      gradients := s.gradients + t.gradients
      masks := s.masks + t.masks }

structure Tally where
  warnings : List String := []
  stats : Stats := {}

instance : Add Tally where
  add s t := { warnings := s.warnings ++ t.warnings, stats := s.stats + t.stats }

namespace Design

/-! ## The tree of a document -/

mutual

def treeOf? : Json → Option (Tree Attributes)
  | .obj fields => some (.node ⟨fields⟩ (childTrees fields))
  | _ => none

def childTrees : List (String × Json) → List (Tree Attributes)
  | [] => []
  | (key, value) :: rest => if key = "children" then itemTrees value else childTrees rest

def itemTrees : Json → List (Tree Attributes)
  | .arr items => objectTrees items
  | _ => []

def objectTrees : List Json → List (Tree Attributes)
  | [] => []
  | item :: rest =>
    match treeOf? item with
    | some tree => tree :: objectTrees rest
    | none => objectTrees rest

end

/-! ## Visits -/

/-- Whether a node is passed over: it is hidden, or a slice or a guide, which are never painted. -/
def isSkipped (node : Attributes) : Except Fault Bool :=
  if !isVisible node then .ok true
  else match node.get "type" with
    | .str type => .ok (type == "SLICE" || type == "GUIDE")
    | .arr items => .error (.compoundName (.arr items))
    | .obj fields => .error (.compoundName (.obj fields))
    | _ => .ok false

/-- The id by which a node is known again below itself; a node without an id never is. -/
def nodeKey? (node : Attributes) : Option String :=
  let id := node.get "id"
  if id.isGiven then some id.label else none

def elementStats (e : Element) : Stats :=
  { containers := if e.kind = .container then 1 else 0
    texts := if e.kind = .text then 1 else 0
    vectors := if e.kind = .vector then 1 else 0
    images := if e.kind = .image then 1 else 0
    gradients := if e.style.hasGradient then 1 else 0
    masks := if e.style.isMask then 1 else 0 }

def visited : Tally := { stats := { nodesTotal := 1 } }

def cycleWarning (key : String) : String :=
  "Cycle detected at node " ++ key ++ "; subtree skipped"

/-- The key of a node, if a node above it has the same. -/
def repeatedKey? (ancestors : List String) (node : Attributes) : Option String :=
  (nodeKey? node).filter ancestors.contains

mutual

/-- The element tree for a node, given the box of its parent, whether the parent is a flow and the
keys above it. -/
def readTree (parentBox : Option Attributes) (inFlow : Bool) (ancestors : List String) :
    Tree Attributes → Except Fault (Option (Tree Element) × Tally)
  | .node node children => do
    match repeatedKey? ancestors node with
    | some key => return (none, { warnings := [cycleWarning key] })
    | none =>
      match ← readElement? node parentBox inFlow with
      | none => return (none, visited)
      | some (element, warnings) =>
        let (below, tally) ← readForest (boundingBox? node) (flowDirection? node).isSome
          ((nodeKey? node).toList ++ ancestors) children
        return (some (.node element below),
          visited + { warnings, stats := elementStats element } + tally)

def readForest (parentBox : Option Attributes) (inFlow : Bool) (ancestors : List String) :
    List (Tree Attributes) → Except Fault (List (Tree Element) × Tally)
  | [] => return ([], {})
  | tree :: rest => do
    if ← isSkipped tree.value then readForest parentBox inFlow ancestors rest
    else
      let (element, tally) ← readTree parentBox inFlow ancestors tree
      let (elements, tallies) ← readForest parentBox inFlow ancestors rest
      return (element.toList ++ elements, tally + tallies)

end

/-! ## Documents -/

structure Document where
  scene : Scene
  tally : Tally

/-- The pages of a file, which is given whole or by its document alone. -/
def pages? (file : Json) : Except Fault Json :=
  match file with
  | .obj fields =>
    let document := ((Attributes.mk fields).get? "document").getD file
    match document with
    | .obj inner =>
      match (Attributes.mk inner).get "children" with
      | .arr pages => .ok (.arr pages)
      | _ => .error .documentWithoutChildren
    | _ => .error .documentWithoutChildren
  | _ => .error .documentNoObject

/-- A page whose children are a number or `true` cannot be walked. -/
def checkWalkable (children : Json) : Except Fault Unit :=
  match children with
  | .int _ | .float _ | .nan | .bool _ =>
    if children.isGiven then .error (.noList children) else .ok ()
  | _ => .ok ()

/-- The top-level elements of a page, which have neither a parent's box nor a flow. -/
def readPage (page : Tree Attributes) : Except Fault (List (Tree Element) × Tally) := do
  if ← isSkipped page.value then return ([], {})
  checkWalkable (page.value.get "children")
  readForest none false (nodeKey? page.value).toList page.children

def readPages : List (Tree Attributes) → Except Fault (List (Tree Element) × Tally)
  | [] => return ([], {})
  | page :: rest => do
    let (scene, tally) ← readPage page
    let (scenes, tallies) ← readPages rest
    return (scene ++ scenes, tally + tallies)

def readDocument (file : Json) : Except Fault Document := do
  let (scene, tally) ← readPages (itemTrees (← pages? file))
  return { scene, tally }

def readNode (node : Tree Attributes) : Except Fault (Option (Tree Element) × Tally) :=
  readTree none false [] node

end Design
end DesignToWeb
