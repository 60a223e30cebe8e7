import Mathlib.Algebra.Group.Defs
import DesignToWeb.Proofs.Design.Kept
import DesignToWeb.Proofs.Tree

/-!
# The walk over a document

A document is walked along the paths of its lists of children.  What becomes of
a node is settled by the node and the nodes above it, and the walk goes on below
those that are kept.  Every visit comes to an element or to none and to a tally
of its own; a scene and its tally are what the visits came to, in their order.
-/

namespace DesignToWeb

/-! ## Sums of tallies -/

namespace Stats

instance : Zero Stats := ⟨{}⟩

theorem add_def (s t : Stats) : s + t =
    { nodesTotal := s.nodesTotal + t.nodesTotal
      containers := s.containers + t.containers
      texts := s.texts + t.texts
      vectors := s.vectors + t.vectors
      images := s.images + t.images
      gradients := s.gradients + t.gradients
      masks := s.masks + t.masks } := rfl

theorem zero_def : (0 : Stats) = {} := rfl

instance : AddCommMonoid Stats where
  add_assoc s t u := by simp only [add_def, Nat.add_assoc]
  zero_add s := by simp only [add_def, zero_def, Nat.zero_add]
  add_zero s := by simp only [add_def, zero_def, Nat.add_zero]
  add_comm s t := by
    simp only [add_def, Stats.mk.injEq]
    omega
  nsmul := nsmulRec

end Stats

namespace Tally

instance : Zero Tally := ⟨{}⟩

@[simp] theorem warnings_add (s t : Tally) : (s + t).warnings = s.warnings ++ t.warnings := rfl

@[simp] theorem stats_add (s t : Tally) : (s + t).stats = s.stats + t.stats := rfl

@[simp] theorem warnings_zero : (0 : Tally).warnings = [] := rfl

@[simp] theorem stats_zero : (0 : Tally).stats = 0 := rfl

theorem ext_parts {s t : Tally} (hwarnings : s.warnings = t.warnings) (hstats : s.stats = t.stats) :
    s = t := by
  cases s
  cases t
  exact congr (congrArg Tally.mk hwarnings) hstats

instance : AddMonoid Tally where
  add_assoc s t u := ext_parts (List.append_assoc _ _ _) (add_assoc _ _ _)
  zero_add s := ext_parts (List.nil_append _) (zero_add _)
  add_zero s := ext_parts (List.append_nil _) (add_zero _)
  nsmul := nsmulRec

end Tally

namespace Design

open Outcome

/-! ## The paths of a document -/

mutual

/-- A value with the items of its list of children below it, whatever these are. -/
def rawTree : Json → Tree Json
  | .obj fields => .node (.obj fields) (rawChildren fields)
  | value => .node value []

def rawChildren : List (String × Json) → List (Tree Json)
  | [] => []
  | (key, value) :: rest => if key = "children" then rawItems value else rawChildren rest

def rawItems : Json → List (Tree Json)
  | .arr items => rawForest items
  | _ => []

def rawForest : List Json → List (Tree Json)
  | [] => []
  | item :: rest => rawTree item :: rawForest rest

end

/-- The paths of a document, each from a page down to some value. -/
def documentPaths (file : Json) : List (List Json) :=
  match pages? file with
  | .ok pages => Tree.pathsForest (rawItems pages)
  | .error _ => []

/-- The path as nodes, if every value on it is an object. -/
def objectPath? (path : List Json) : Option (List Attributes) := path.mapM Json.attributes?

/-- The paths along objects, each a page and the nodes below it. -/
def nodePaths (file : Json) : List (List Attributes) := (documentPaths file).filterMap objectPath?

theorem objectTrees_cons (item : Json) (rest : List Json) :
    objectTrees (item :: rest) = (treeOf? item).toList ++ objectTrees rest := by
  rw [objectTrees]
  cases treeOf? item with
  | none => rfl
  | some tree => rfl

theorem objectPath?_cons_obj (fields : List (String × Json)) (path : List Json) :
    objectPath? (.obj fields :: path) = (objectPath? path).map (Attributes.mk fields :: ·) := by
  unfold objectPath?
  rw [List.mapM_cons]
  cases path.mapM Json.attributes? <;> rfl

theorem filterMap_objectPath?_below (fields : List (String × Json)) (ps : List (List Json)) :
    (([Json.obj fields] :: ps.map (.obj fields :: ·)).filterMap objectPath?) =
      [⟨fields⟩] :: (ps.filterMap objectPath?).map (Attributes.mk fields :: ·) := by
  have hbelow : (objectPath? ∘ (Json.obj fields :: ·)) =
      fun path ↦ (objectPath? path).map (Attributes.mk fields :: ·) :=
    funext (objectPath?_cons_obj fields)
  rw [List.filterMap_cons, List.filterMap_map, hbelow, ← List.map_filterMap]
  rfl

mutual

theorem filterMap_paths_rawTree : (value : Json) →
    (Tree.paths (rawTree value)).filterMap objectPath? = Tree.pathsForest (treeOf? value).toList
  | .obj fields => by
    rw [rawTree, Tree.paths, filterMap_objectPath?_below, filterMap_paths_rawChildren fields, treeOf?,
      Option.toList, Tree.pathsForest, Tree.pathsForest, Tree.paths, List.append_nil]
  | .null | .bool _ | .int _ | .float _ | .nan | .str _ | .arr _ => rfl

theorem filterMap_paths_rawChildren : (fields : List (String × Json)) →
    (Tree.pathsForest (rawChildren fields)).filterMap objectPath? =
      Tree.pathsForest (childTrees fields)
  | [] => rfl
  | (key, value) :: rest => by
    unfold rawChildren childTrees
    split
    · exact filterMap_paths_rawItems value
    · exact filterMap_paths_rawChildren rest

theorem filterMap_paths_rawItems : (value : Json) →
    (Tree.pathsForest (rawItems value)).filterMap objectPath? = Tree.pathsForest (itemTrees value)
  | .arr items => filterMap_paths_rawForest items
  | .null | .bool _ | .int _ | .float _ | .nan | .str _ | .obj _ => rfl

theorem filterMap_paths_rawForest : (items : List Json) →
    (Tree.pathsForest (rawForest items)).filterMap objectPath? =
      Tree.pathsForest (objectTrees items)
  | [] => rfl
  | item :: rest => by
    rw [rawForest, Tree.pathsForest, List.filterMap_append, filterMap_paths_rawTree item,
      filterMap_paths_rawForest rest, ← Tree.pathsForest_append, objectTrees_cons]

end

theorem nodePaths_eq {file pages : Json} (h : pages? file = .ok pages) :
    nodePaths file = Tree.pathsForest (itemTrees pages) := by
  unfold nodePaths documentPaths
  rw [h]
  exact filterMap_paths_rawItems pages

/-! ## What becomes of a node -/

/-- The page and the nodes above a place of a document, the nearest first. -/
structure Surroundings where
  page : Attributes
  nodes : List Attributes := []

namespace Surroundings

/-- The surroundings of what stands directly below a node. -/
def below (s : Surroundings) (node : Attributes) : Surroundings :=
  { s with nodes := node :: s.nodes }

/-- The keys above a place, that of the page among them. -/
def keys (s : Surroundings) : List String := (s.nodes ++ [s.page]).filterMap nodeKey?

/-- The box of the parent.  A page is nobody's parent. -/
def box? (s : Surroundings) : Option Attributes := s.nodes.head?.bind boundingBox?

def inFlow (s : Surroundings) : Bool :=
  s.nodes.head?.any fun parent ↦ (flowDirection? parent).isSome

@[simp] theorem box?_below (s : Surroundings) (node : Attributes) :
    (s.below node).box? = boundingBox? node := rfl

@[simp] theorem inFlow_below (s : Surroundings) (node : Attributes) :
    (s.below node).inFlow = (flowDirection? node).isSome := rfl

theorem keys_page (page : Attributes) :
    (⟨page, []⟩ : Surroundings).keys = (nodeKey? page).toList := rfl

@[simp] theorem keys_below (s : Surroundings) (node : Attributes) :
    (s.below node).keys = (nodeKey? node).toList ++ s.keys := by
  unfold keys below
  rw [List.cons_append, List.filterMap_cons]
  cases nodeKey? node <;> rfl

end Surroundings

/-- Whether the walk keeps a node: it is painted, its type can be rendered, and its id is neither
the page's nor that of a node above it. -/
structure IsKept (s : Surroundings) (node : Attributes) : Prop where
  painted : isPassedOver node = false
  fresh : ∀ key, nodeKey? node = some key → key ∉ s.keys
  renderable : (kind? node).isSome

inductive Fate where
  | passedOver
  | repeated (key : String)
  | unrenderable
  | kept
deriving DecidableEq

/-- What becomes of a node when the walk comes to it. -/
def fate (s : Surroundings) (node : Attributes) : Fate :=
  if isPassedOver node then .passedOver
  else match repeatedKey? s.keys node with
    | some key => .repeated key
    | none => if (kind? node).isSome then .kept else .unrenderable

theorem repeatedKey?_eq_some {keys : List String} {node : Attributes} {key : String} :
    repeatedKey? keys node = some key ↔ nodeKey? node = some key ∧ key ∈ keys := by
  rw [repeatedKey?, Option.filter_eq_some_iff, List.contains_iff_mem]

theorem repeatedKey?_eq_none {keys : List String} {node : Attributes} :
    repeatedKey? keys node = none ↔ ∀ key, nodeKey? node = some key → key ∉ keys := by
  rw [Option.eq_none_iff_forall_ne_some]
  simp only [ne_eq, repeatedKey?_eq_some, not_and]

theorem isKept_iff {s : Surroundings} {node : Attributes} : IsKept s node ↔
    isPassedOver node = false ∧ repeatedKey? s.keys node = none ∧ (kind? node).isSome = true := by
  rw [repeatedKey?_eq_none]
  exact ⟨fun h ↦ ⟨h.painted, h.fresh, h.renderable⟩, fun h ↦ ⟨h.1, h.2.1, h.2.2⟩⟩

/-- The tests that settle a fate, in their order. -/
theorem fate_cases (s : Surroundings) (node : Attributes) :
    (isPassedOver node = true ∧ fate s node = .passedOver) ∨
      (isPassedOver node = false ∧ ∃ key, repeatedKey? s.keys node = some key ∧
        fate s node = .repeated key) ∨
      (isPassedOver node = false ∧ repeatedKey? s.keys node = none ∧
        (kind? node).isSome = false ∧ fate s node = .unrenderable) ∨
      (isPassedOver node = false ∧ repeatedKey? s.keys node = none ∧
        (kind? node).isSome = true ∧ fate s node = .kept) := by
  unfold fate
  cases isPassedOver node with
  | true => simp
  | false =>
      cases repeatedKey? s.keys node with
      | some key => simp
      | none => cases (kind? node).isSome <;> simp

section Fates

variable {s : Surroundings} {node : Attributes}

theorem fate_eq_passedOver : fate s node = .passedOver ↔ isPassedOver node = true := by
  rcases fate_cases s node with ⟨hpassed, hfate⟩ | ⟨hpassed, _, _, hfate⟩ |
    ⟨hpassed, _, _, hfate⟩ | ⟨hpassed, _, _, hfate⟩ <;> simp [hpassed, hfate]

theorem fate_eq_repeated {key : String} : fate s node = .repeated key ↔
    isPassedOver node = false ∧ repeatedKey? s.keys node = some key := by
  rcases fate_cases s node with ⟨hpassed, hfate⟩ | ⟨hpassed, _, hkey, hfate⟩ |
    ⟨hpassed, hkey, _, hfate⟩ | ⟨hpassed, hkey, _, hfate⟩ <;> simp [*]

theorem fate_eq_unrenderable : fate s node = .unrenderable ↔
    isPassedOver node = false ∧ repeatedKey? s.keys node = none ∧ (kind? node).isSome = false := by
  rcases fate_cases s node with ⟨hpassed, hfate⟩ | ⟨hpassed, _, hkey, hfate⟩ |
    ⟨hpassed, hkey, hkind, hfate⟩ | ⟨hpassed, hkey, hkind, hfate⟩ <;> simp [*]

theorem fate_eq_kept : fate s node = .kept ↔ IsKept s node := by
  rw [isKept_iff]
  rcases fate_cases s node with ⟨hpassed, hfate⟩ | ⟨hpassed, _, hkey, hfate⟩ |
    ⟨hpassed, hkey, hkind, hfate⟩ | ⟨hpassed, hkey, hkind, hfate⟩ <;> simp [*]

end Fates

theorem not_isKept_of_fate {s : Surroundings} {node : Attributes} {f : Fate}
    (h : fate s node = f) (hne : f ≠ .kept) : ¬ IsKept s node := by
  rw [← fate_eq_kept, h]
  exact hne

instance (s : Surroundings) (node : Attributes) : Decidable (IsKept s node) :=
  decidable_of_iff _ fate_eq_kept

/-! ## Visits -/

/-- A node that the walk comes to, and where it stands. -/
structure Visit where
  surroundings : Surroundings
  node : Attributes

def Visit.fate (v : Visit) : Fate := Design.fate v.surroundings v.node

/-- The visit at the end of a path, unless the walk stops before. -/
def visitBelow? (s : Surroundings) : List Attributes → Option Visit
  | [] => none
  | [node] => some ⟨s, node⟩
  | node :: rest => if IsKept s node then visitBelow? (s.below node) rest else none

/-- The visit at the end of a path from a page down.  The page itself is not visited. -/
def visit? : List Attributes → Option Visit
  | [] => none
  | page :: nodes => if isPassedOver page then none else visitBelow? ⟨page, []⟩ nodes

/-- The visits of the walk over a document, in their order. -/
def visits (file : Json) : List Visit := (nodePaths file).filterMap visit?

mutual

def treeVisits (s : Surroundings) : Tree Attributes → List Visit
  | .node node children =>
    ⟨s, node⟩ :: if IsKept s node then forestVisits (s.below node) children else []

def forestVisits (s : Surroundings) : List (Tree Attributes) → List Visit
  | [] => []
  | tree :: rest => treeVisits s tree ++ forestVisits s rest

end

theorem visitBelow?_cons {s : Surroundings} {node : Attributes} {path : List Attributes}
    (h : path ≠ []) :
    visitBelow? s (node :: path) =
      if IsKept s node then visitBelow? (s.below node) path else none := by
  cases path with
  | nil => exact absurd rfl h
  | cons next rest => rfl

mutual

theorem filterMap_visitBelow?_paths (s : Surroundings) : (tree : Tree Attributes) →
    (Tree.paths tree).filterMap (visitBelow? s) = treeVisits s tree
  | .node node children => by
    have hbelow : (Tree.pathsForest children).filterMap (visitBelow? s ∘ (node :: ·)) =
        if IsKept s node then forestVisits (s.below node) children else [] := by
      rw [← filterMap_visitBelow?_pathsForest (s.below node) children]
      by_cases hkept : IsKept s node
      · rw [if_pos hkept]
        refine List.filterMap_congr fun path hpath ↦ ?_
        have hpath := Tree.ne_nil_of_mem_pathsForest children path hpath
        exact (visitBelow?_cons hpath).trans (if_pos hkept)
      · rw [if_neg hkept, List.filterMap_eq_nil_iff]
        intro path hpath
        have hpath := Tree.ne_nil_of_mem_pathsForest children path hpath
        exact (visitBelow?_cons hpath).trans (if_neg hkept)
    rw [Tree.paths, treeVisits, List.filterMap_cons, List.filterMap_map, hbelow]
    rfl

theorem filterMap_visitBelow?_pathsForest (s : Surroundings) : (trees : List (Tree Attributes)) →
    (Tree.pathsForest trees).filterMap (visitBelow? s) = forestVisits s trees
  | [] => rfl
  | tree :: rest => by
    rw [Tree.pathsForest, forestVisits, List.filterMap_append, filterMap_visitBelow?_paths s tree,
      filterMap_visitBelow?_pathsForest s rest]

end

def pageVisits (page : Tree Attributes) : List Visit :=
  if isPassedOver page.value then [] else forestVisits ⟨page.value, []⟩ page.children

theorem filterMap_visit?_paths (page : Tree Attributes) :
    (Tree.paths page).filterMap visit? = pageVisits page := by
  obtain ⟨node, children⟩ := page
  have hself : visit? [node] = none := ite_self none
  rw [Tree.paths, List.filterMap_cons_none hself, List.filterMap_map]
  unfold pageVisits Tree.value Tree.children
  by_cases hpassed : isPassedOver node = true
  · rw [if_pos hpassed, List.filterMap_eq_nil_iff]
    intro path _
    exact if_pos hpassed
  · rw [if_neg hpassed, ← filterMap_visitBelow?_pathsForest]
    exact List.filterMap_congr fun path _ ↦ if_neg hpassed

theorem visits_eq {file pages : Json} (h : pages? file = .ok pages) :
    visits file = (itemTrees pages).flatMap pageVisits := by
  rw [visits, nodePaths_eq h]
  induction itemTrees pages with
  | nil => rfl
  | cons page rest ih =>
      rw [Tree.pathsForest, List.filterMap_append, filterMap_visit?_paths, ih, List.flatMap_cons]

/-! ## What visits come to -/

/-- What a visit comes to: an element or none, and a tally of its own. -/
inductive Yields (v : Visit) : Option Element → Tally → Prop
  | passedOver (h : v.fate = .passedOver) : Yields v none 0
  | repeated {key : String} (h : v.fate = .repeated key) :
      Yields v none { warnings := [cycleWarning key] }
  | unrenderable (h : v.fate = .unrenderable) : Yields v none visited
  | kept {element : Element} {warnings : List String} (h : v.fate = .kept)
      (hread : readElement? v.node v.surroundings.box? v.surroundings.inFlow =
        .ok (some (element, warnings))) :
      Yields v (some element) (visited + { warnings, stats := elementStats element })

/-- What the visits of a list come to, put together in their order. -/
inductive AllYield : List Visit → List Element → Tally → Prop
  | nil : AllYield [] [] 0
  | cons {v : Visit} {element? : Option Element} {own : Tally} {vs : List Visit}
      {elements : List Element} {tally : Tally} (h : Yields v element? own)
      (hrest : AllYield vs elements tally) :
      AllYield (v :: vs) (element?.toList ++ elements) (own + tally)

namespace AllYield

theorem singleton {v : Visit} {element? : Option Element} {own : Tally}
    (h : Yields v element? own) : AllYield [v] element?.toList own := by
  have hcons := AllYield.cons h .nil
  rwa [List.append_nil, add_zero] at hcons

theorem append {vs ws : List Visit} {elements others : List Element} {tally rest : Tally}
    (h : AllYield vs elements tally) (h' : AllYield ws others rest) :
    AllYield (vs ++ ws) (elements ++ others) (tally + rest) := by
  induction h with
  | nil => rwa [List.nil_append, List.nil_append, zero_add]
  | cons hv _ ih =>
      rw [List.cons_append, List.append_assoc, add_assoc]
      exact .cons hv ih

end AllYield

mutual

theorem readTree_yields : (tree : Tree Attributes) → {s : Surroundings} →
    {element? : Option (Tree Element)} → {tally : Tally} → isPassedOver tree.value = false →
    readTree s.box? s.inFlow s.keys tree = .ok (element?, tally) →
    AllYield (treeVisits s tree) (Tree.preorderForest element?.toList) tally
  | .node node children, s, element?, tally, hpainted, h => by
    unfold treeVisits
    rcases readTree_eq_ok h with ⟨key, hkey, rfl, rfl⟩ | ⟨hkey, hread, rfl, rfl⟩ |
      ⟨hkey, element, warnings, below, tallyBelow, hread, hbelow, rfl, rfl⟩
    · have hfate : fate s node = .repeated key := fate_eq_repeated.mpr ⟨hpainted, hkey⟩
      rw [if_neg (not_isKept_of_fate hfate nofun)]
      exact .singleton (v := ⟨s, node⟩) (.repeated hfate)
    · have hfate : fate s node = .unrenderable :=
        fate_eq_unrenderable.mpr ⟨hpainted, hkey, by rw [readElement?_eq_none hread]; rfl⟩
      rw [if_neg (not_isKept_of_fate hfate nofun)]
      exact .singleton (v := ⟨s, node⟩) (.unrenderable hfate)
    · have hkept : IsKept s node :=
        ⟨hpainted, repeatedKey?_eq_none.mp hkey, by rw [(readElement?_eq_some hread).kind]; rfl⟩
      rw [if_pos hkept, Option.toList, Tree.preorderForest, Tree.preorderForest,
        List.append_nil, Tree.preorder]
      rw [← Surroundings.keys_below] at hbelow
      exact .cons (.kept (fate_eq_kept.mpr hkept) hread) (readForest_yields children hbelow)

theorem readForest_yields : (trees : List (Tree Attributes)) → {s : Surroundings} →
    {elements : List (Tree Element)} → {tally : Tally} →
    readForest s.box? s.inFlow s.keys trees = .ok (elements, tally) →
    AllYield (forestVisits s trees) (Tree.preorderForest elements) tally
  | [], _, _, _, h => by
    obtain ⟨rfl, rfl⟩ := Prod.mk.inj (pure_eq_ok.mp h)
    exact .nil
  | tree :: rest, s, elements, tally, h => by
    unfold forestVisits
    rcases readForest_cons_eq_ok h with
      ⟨hpassed, hrest⟩ | ⟨hpainted, _, _, _, _, hhere, hrest, rfl, rfl⟩
    · have hvisits : treeVisits s tree = [⟨s, tree.value⟩] := by
        obtain ⟨node, children⟩ := tree
        have hfate : fate s node = .passedOver := fate_eq_passedOver.mpr hpassed
        rw [treeVisits, if_neg (not_isKept_of_fate hfate nofun)]
        rfl
      rw [hvisits, ← zero_add tally]
      exact .cons (.passedOver (fate_eq_passedOver.mpr hpassed)) (readForest_yields rest hrest)
    · rw [Tree.preorderForest_append]
      exact (readTree_yields tree hpainted hhere).append (readForest_yields rest hrest)

end

theorem readPage_yields {page : Tree Attributes} {elements : List (Tree Element)} {tally : Tally}
    (h : readPage page = .ok (elements, tally)) :
    AllYield (pageVisits page) (Tree.preorderForest elements) tally := by
  unfold pageVisits
  rcases readPage_eq_ok h with ⟨hpassed, rfl, rfl⟩ | ⟨hpainted, hforest⟩
  · rw [if_pos hpassed]
    exact .nil
  · rw [if_neg (Bool.eq_false_iff.mp hpainted)]
    exact readForest_yields (s := ⟨page.value, []⟩) page.children hforest

theorem readPages_yields {pages : List (Tree Attributes)} {scene : Scene} {tally : Tally}
    (h : readPages pages = .ok (scene, tally)) :
    AllYield (pages.flatMap pageVisits) (Tree.preorderForest scene) tally := by
  induction pages generalizing scene tally with
  | nil =>
      obtain ⟨rfl, rfl⟩ := Prod.mk.inj (pure_eq_ok.mp h)
      exact .nil
  | cons page rest ih =>
      obtain ⟨_, _, _, _, hhere, hrest, rfl, rfl⟩ := readPages_cons_eq_ok h
      rw [List.flatMap_cons, Tree.preorderForest_append]
      exact (readPage_yields hhere).append (ih hrest)

/-- A scene and its tally are what the visits of the walk come to. -/
theorem readDocument_yields {file : Json} {document : Document}
    (h : readDocument file = .ok document) :
    AllYield (visits file) (Tree.preorderForest document.scene) document.tally := by
  obtain ⟨pages, hpages, hscene⟩ := readDocument_eq_ok h
  rw [visits_eq hpages]
  exact readPages_yields hscene

/-- Whether an element is what the node of a visit is read into. -/
def Visit.Reads (v : Visit) (element : Element) : Prop :=
  ∃ warnings, readElement? v.node v.surroundings.box? v.surroundings.inFlow =
    .ok (some (element, warnings))

theorem AllYield.exists_reads {vs : List Visit} {elements : List Element} {tally : Tally}
    (h : AllYield vs elements tally) {element : Element} (helement : element ∈ elements) :
    ∃ v ∈ vs, v.Reads element := by
  induction h with
  | nil => exact absurd helement List.not_mem_nil
  | @cons v element? own vs elements tally hv _ ih =>
      rcases List.mem_append.mp helement with hhere | hrest
      · cases hv with
        | kept hfate hread =>
            obtain rfl := List.mem_singleton.mp hhere
            exact ⟨v, List.mem_cons_self, _, hread⟩
        | _ => exact absurd hhere List.not_mem_nil
      · obtain ⟨w, hw, hreads⟩ := ih hrest
        exact ⟨w, List.mem_cons_of_mem v hw, hreads⟩

/-- Every element of a scene is read from a node of the document. -/
theorem exists_visit_of_mem {file : Json} {document : Document}
    (h : readDocument file = .ok document) {element : Element}
    (helement : element ∈ Tree.preorderForest document.scene) :
    ∃ v ∈ visits file, v.Reads element :=
  (readDocument_yields h).exists_reads helement

end Design
end DesignToWeb
