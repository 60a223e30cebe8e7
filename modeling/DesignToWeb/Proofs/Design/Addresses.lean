import DesignToWeb.Proofs.Design.Walk

/-!
# Addresses in a document

A node of a document has an address: the index of its page, then the index of
every node on the way down in the list of children it is in.  At an address a
document can be edited, and it can be cut off there.
-/

namespace DesignToWeb

/-! ## Setting a field -/

namespace Attributes

theorem get?_cons (k key : String) (v : Json) (rest : List (String × Json)) :
    (⟨(k, v) :: rest⟩ : Attributes).get? key =
      if key = k then some v else (⟨rest⟩ : Attributes).get? key := by
  by_cases h : key = k
  · simp [get?, h]
  · simp [get?, List.lookup_cons, h, beq_eq_false_iff_ne.mpr h]

def set (key : String) (value : Json) (a : Attributes) : Attributes :=
  ⟨insertField key value a.fields⟩

theorem get?_set (key other : String) (value : Json) (a : Attributes) :
    (a.set key value).get? other = if other = key then some value else a.get? other := by
  obtain ⟨fields⟩ := a
  unfold set
  induction fields with
  | nil => rw [insertField, get?_cons]
  | cons field rest ih =>
      obtain ⟨k, v⟩ := field
      unfold insertField
      by_cases hk : k = key
      · subst hk
        rw [if_pos rfl, get?_cons, get?_cons]
        split <;> rfl
      · rw [if_neg hk, get?_cons, get?_cons, ih]
        by_cases h : other = k
        · rw [if_pos h, if_pos h, if_neg (h ▸ hk)]
        · rw [if_neg h, if_neg h]

theorem get_set_self (key : String) (value : Json) (a : Attributes) :
    (a.set key value).get key = value := by
  rw [get, get?_set, if_pos rfl]
  rfl

theorem get_set_of_ne {key other : String} (h : other ≠ key) (value : Json) (a : Attributes) :
    (a.set key value).get other = a.get other := by
  rw [get, get?_set, if_neg h]
  rfl

theorem set_of_get? {key : String} {value : Json} {a : Attributes} (h : a.get? key = some value) :
    a.set key value = a := by
  obtain ⟨fields⟩ := a
  refine congrArg Attributes.mk ?_
  induction fields with
  | nil => exact nomatch h
  | cons field rest ih =>
      obtain ⟨k, v⟩ := field
      rw [get?_cons] at h
      unfold insertField
      by_cases hk : k = key
      · rw [if_pos hk.symm] at h
        rw [if_pos hk, Option.some.inj h]
      · rw [if_neg (Ne.symm hk)] at h
        rw [if_neg hk, ih h]

end Attributes

namespace Json

/-- The value with a function applied to it, if it is an object. -/
def mapObject (f : Attributes → Attributes) : Json → Json
  | obj fields => obj (f ⟨fields⟩).fields
  | j => j

end Json

namespace Design

/-! ## Lists of children -/

def childItems (node : Attributes) : List Json := (node.get "children").items

def withChildren (items : List Json) (node : Attributes) : Attributes :=
  node.set "children" (.arr items)

theorem childItems_withChildren (items : List Json) (node : Attributes) :
    childItems (withChildren items node) = items := by
  rw [childItems, withChildren, Attributes.get_set_self]
  rfl

theorem withChildren_childItems {node : Attributes} (h : childItems node ≠ []) :
    withChildren (childItems node) node = node := by
  refine Attributes.set_of_get? ?_
  unfold childItems Attributes.get at *
  cases hchildren : node.get? "children" with
  | none =>
      rw [hchildren] at h
      exact absurd rfl h
  | some children =>
      rw [hchildren] at h
      cases children with
      | arr items => rfl
      | null | bool _ | int _ | float _ | nan | str _ | obj _ => exact absurd rfl h

theorem itemTrees_eq (value : Json) : itemTrees value = objectTrees value.items := by
  cases value <;> rfl

theorem childTrees_eq (node : Attributes) :
    childTrees node.fields = objectTrees (childItems node) := by
  obtain ⟨fields⟩ := node
  rw [childItems, ← itemTrees_eq, Attributes.get]
  induction fields with
  | nil => rfl
  | cons field rest ih =>
      obtain ⟨key, value⟩ := field
      rw [childTrees, Attributes.get?_cons]
      by_cases hkey : key = "children"
      · rw [if_pos hkey, if_pos hkey.symm]
        rfl
      · rw [if_neg hkey, if_neg (Ne.symm hkey), ih]

def nodeTree (node : Attributes) : Tree Attributes := .node node (objectTrees (childItems node))

theorem objectTrees_eq_map (items : List Json) :
    objectTrees items = (items.filterMap Json.attributes?).map nodeTree := by
  induction items with
  | nil => rfl
  | cons item rest ih =>
      rw [objectTrees_cons, ih]
      cases item with
      | obj fields =>
          rw [treeOf?, childTrees_eq ⟨fields⟩]
          rfl
      | null | bool _ | int _ | float _ | nan | str _ | arr _ => rfl

theorem objectTrees_append (items others : List Json) :
    objectTrees (items ++ others) = objectTrees items ++ objectTrees others := by
  rw [objectTrees_eq_map, List.filterMap_append, List.map_append, ← objectTrees_eq_map,
    ← objectTrees_eq_map]

theorem objectTrees_node (node : Attributes) : objectTrees [.obj node.fields] = [nodeTree node] :=
  objectTrees_eq_map [.obj node.fields]

/-! ## Addresses -/

/-- The nodes along an address, from a list of values down. -/
def nodesAlong : List Json → List Nat → Option (List Attributes)
  | _, [] => some []
  | items, i :: address => do
    let node ← items[i]?.bind Json.attributes?
    let below ← nodesAlong (childItems node) address
    return node :: below

/-- The visit of the walk over a document at an address, if the walk comes there. -/
def visitAt? (file : Json) (address : List Nat) : Option Visit :=
  match pages? file with
  | .ok pages => (nodesAlong pages.items address).bind visit?
  | .error _ => none

theorem exists_around {α : Type} {items : List α} {i : Nat} {item : α}
    (h : items[i]? = some item) :
    ∃ before after, items = before ++ item :: after ∧ before.length = i := by
  obtain ⟨hi, rfl⟩ := List.getElem?_eq_some_iff.mp h
  exact ⟨items.take i, items.drop (i + 1), by simp, by simp; omega⟩

theorem nodesAlong_cons_eq_some {items : List Json} {i : Nat} {address : List Nat}
    {nodes : List Attributes} (h : nodesAlong items (i :: address) = some nodes) :
    ∃ before node after rest, items = before ++ .obj node.fields :: after ∧ before.length = i ∧
      nodesAlong (childItems node) address = some rest ∧ nodes = node :: rest := by
  unfold nodesAlong at h
  obtain ⟨node, hnode, h⟩ := Option.bind_eq_some_iff.mp h
  obtain ⟨rest, hrest, h⟩ := Option.bind_eq_some_iff.mp h
  obtain ⟨item, hitem, hfields⟩ := Option.bind_eq_some_iff.mp hnode
  obtain ⟨before, after, rfl, hlength⟩ := exists_around hitem
  cases item with
  | obj fields =>
      obtain rfl := Option.some.inj hfields
      exact ⟨before, ⟨fields⟩, after, rest, rfl, hlength, hrest, (Option.some.inj h).symm⟩
  | null | bool _ | int _ | float _ | nan | str _ | arr _ => exact nomatch hfields

theorem nodesAlong_ne_nil {items : List Json} {address : List Nat} {nodes : List Attributes}
    (h : nodesAlong items address = some nodes) (haddress : address ≠ []) :
    items ≠ [] ∧ nodes ≠ [] := by
  cases address with
  | nil => exact absurd rfl haddress
  | cons i address =>
      obtain ⟨before, node, after, rest, rfl, _, _, rfl⟩ := nodesAlong_cons_eq_some h
      exact ⟨List.append_ne_nil_of_right_ne_nil before (List.cons_ne_nil _ after),
        List.cons_ne_nil node rest⟩

theorem nodesAlong_around {address : List Nat} {node : Attributes} {rest : List Attributes}
    (before after : List Json) (h : nodesAlong (childItems node) address = some rest) :
    nodesAlong (before ++ .obj node.fields :: after) (before.length :: address) =
      some (node :: rest) := by
  have hitem : (before ++ Json.obj node.fields :: after)[before.length]? =
      some (.obj node.fields) := by
    simp
  unfold nodesAlong
  rw [hitem]
  exact Option.bind_eq_some_iff.mpr ⟨node, rfl, Option.bind_eq_some_iff.mpr ⟨rest, h, rfl⟩⟩

theorem mem_filterMap_attributes? {items : List Json} {node : Attributes} :
    node ∈ items.filterMap Json.attributes? ↔ .obj node.fields ∈ items := by
  rw [List.mem_filterMap]
  constructor
  · rintro ⟨item, hitem, hnode⟩
    cases item with
    | obj fields =>
        obtain rfl := Option.some.inj hnode
        exact hitem
    | null | bool _ | int _ | float _ | nan | str _ | arr _ => exact nomatch hnode
  · intro hitem
    exact ⟨_, hitem, rfl⟩

theorem cons_mem_pathsForest_map_nodeTree {nodes : List Attributes} {node : Attributes}
    {rest : List Attributes} :
    node :: rest ∈ Tree.pathsForest (nodes.map nodeTree) ↔
      node ∈ nodes ∧ (rest = [] ∨ rest ∈ Tree.pathsForest (objectTrees (childItems node))) := by
  induction nodes with
  | nil => simp [Tree.pathsForest]
  | cons first others ih =>
      rw [List.map_cons, Tree.pathsForest, List.mem_append, ih, nodeTree, Tree.paths,
        List.mem_cons, List.mem_map, List.mem_cons, or_and_right]
      refine or_congr_left ?_
      constructor
      · rintro (h | ⟨path, hpath, h⟩)
        · obtain ⟨rfl, rfl⟩ := List.cons.inj h
          exact ⟨rfl, .inl rfl⟩
        · obtain ⟨rfl, rfl⟩ := List.cons.inj h
          exact ⟨rfl, .inr hpath⟩
      · rintro ⟨rfl, rfl | hpath⟩
        · exact .inl rfl
        · exact .inr ⟨rest, hpath, rfl⟩

/-- The paths of nodes are the paths along addresses. -/
theorem mem_pathsForest_objectTrees {items : List Json} {nodes : List Attributes} :
    nodes ∈ Tree.pathsForest (objectTrees items) ↔
      nodes ≠ [] ∧ ∃ address, nodesAlong items address = some nodes := by
  -- by induction on the nodes: the first is some item, and the others lie on an address below it
  induction nodes generalizing items with
  | nil =>
      have hnil : [] ∉ Tree.pathsForest (objectTrees items) :=
        fun h ↦ Tree.ne_nil_of_mem_pathsForest _ _ h rfl
      exact iff_of_false hnil fun h ↦ h.1 rfl
  | cons node rest ih =>
      rw [objectTrees_eq_map, cons_mem_pathsForest_map_nodeTree, mem_filterMap_attributes?, ih]
      constructor
      · rintro ⟨hnode, hrest⟩
        obtain ⟨before, after, rfl⟩ := List.append_of_mem hnode
        refine ⟨List.cons_ne_nil node rest, ?_⟩
        rcases hrest with rfl | ⟨_, address, haddress⟩
        · exact ⟨[before.length], nodesAlong_around before after rfl⟩
        · exact ⟨before.length :: address, nodesAlong_around before after haddress⟩
      · rintro ⟨_, address, haddress⟩
        cases address with
        | nil => exact nomatch haddress
        | cons i address =>
            obtain ⟨before, _, after, _, rfl, _, hrest, h⟩ := nodesAlong_cons_eq_some haddress
            obtain ⟨rfl, rfl⟩ := List.cons.inj h
            refine ⟨List.mem_append_right before List.mem_cons_self, ?_⟩
            by_cases hnil : rest = []
            · exact .inl hnil
            · exact .inr ⟨hnil, address, hrest⟩

/-- The visits of the walk over a document are those at its addresses, so that what holds at every
address holds of all of the walk. -/
theorem mem_visits_iff {file : Json} {v : Visit} :
    v ∈ visits file ↔ ∃ address, visitAt? file address = some v := by
  unfold visitAt?
  cases hpages : pages? file with
  | error fault => simp [visits, nodePaths, documentPaths, hpages]
  | ok pages =>
      rw [visits, nodePaths_eq hpages, itemTrees_eq, List.mem_filterMap]
      simp only [mem_pathsForest_objectTrees, Option.bind_eq_some_iff]
      constructor
      · rintro ⟨nodes, ⟨_, address, hnodes⟩, hvisit⟩
        exact ⟨address, nodes, hnodes, hvisit⟩
      · rintro ⟨address, nodes, hnodes, hvisit⟩
        have hne : nodes ≠ [] := by
          rintro rfl
          cases hvisit
        exact ⟨nodes, ⟨hne, address, hnodes⟩, hvisit⟩

/-! ## Editing a document -/

def hidden (node : Attributes) : Attributes := node.set "visible" (.bool false)

def mapChildItems (f : List Json → List Json) (node : Attributes) : Attributes :=
  withChildren (f (childItems node)) node

/-- The values with the node at an address hidden. -/
def hideAlong : List Nat → List Json → List Json
  | [], items => items
  | [i], items => items.modify i (Json.mapObject hidden)
  | i :: address, items => items.modify i (Json.mapObject (mapChildItems (hideAlong address)))

/-- The values cut off before an address. -/
def cutAlong : List Nat → List Json → List Json
  | [], items => items
  | [i], items => items.take i
  | i :: address, items =>
    (items.take (i + 1)).modify i (Json.mapObject (mapChildItems (cutAlong address)))

def mapPages (f : List Json → List Json) (file : Attributes) : Attributes :=
  match file.get? "document" with
  | some document => file.set "document" (document.mapObject (mapChildItems f))
  | none => mapChildItems f file

/-- A file with the node at an address hidden. -/
def hideAt (address : List Nat) : Json → Json := Json.mapObject (mapPages (hideAlong address))

/-- A file without the node at an address and all that comes after it. -/
def cutAt (address : List Nat) : Json → Json := Json.mapObject (mapPages (cutAlong address))

theorem pages?_obj_eq_ok {fields : List (String × Json)} {pages : Json} :
    pages? (.obj fields) = .ok pages ↔
      ∃ inner, ((Attributes.mk fields).get? "document").getD (.obj fields) = .obj inner ∧
        ∃ items, (Attributes.mk inner).get "children" = .arr items ∧ pages = .arr items := by
  unfold pages?
  dsimp only
  cases ((Attributes.mk fields).get? "document").getD (.obj fields) with
  | obj inner =>
      cases hchildren : (Attributes.mk inner).get "children" <;>
        simp [hchildren, eq_comm]
  | null | bool _ | int _ | float _ | nan | str _ | arr _ => simp

theorem pages?_mapPages {file pages : Json} (h : pages? file = .ok pages)
    (f : List Json → List Json) :
    pages? (file.mapObject (mapPages f)) = .ok (.arr (f pages.items)) := by
  cases file with
  | obj fields =>
      obtain ⟨inner, hinner, items, hitems, rfl⟩ := pages?_obj_eq_ok.mp h
      have hedited : (mapChildItems f ⟨inner⟩).get "children" = .arr (f items) := by
        rw [mapChildItems, withChildren, Attributes.get_set_self, childItems, hitems]
        rfl
      refine pages?_obj_eq_ok.mpr ⟨_, ?_, _, hedited, rfl⟩
      unfold mapPages
      cases hdocument : (Attributes.mk fields).get? "document" with
      | none =>
          -- the file is its own document, and no field of that name is set
          rw [hdocument] at hinner
          obtain rfl := Json.obj.inj hinner
          have hother : (mapChildItems f ⟨fields⟩).get? "document" = none := by
            rw [mapChildItems, withChildren, Attributes.get?_set, if_neg (by decide), hdocument]
          exact congrArg (Option.getD · _) hother
      | some document =>
          rw [hdocument] at hinner
          obtain rfl : document = .obj inner := hinner
          rw [Attributes.get?_set, if_pos rfl]
          rfl
  | null | bool _ | int _ | float _ | nan | str _ | arr _ => exact nomatch h

end Design
end DesignToWeb
