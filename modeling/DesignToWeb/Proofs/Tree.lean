import DesignToWeb.Tree

/-!
# Parts of trees

Every node of a forest is the root of a subtree and the end of a path from a
root.  The paths in preorder tell where each node stands: the node above it is
the end of the path without its last value.  A context is a forest with a gap
somewhere among its siblings.
-/

namespace DesignToWeb.Tree

variable {α β : Type}

/-! ## Subtrees -/

mutual

/-- The subtrees of a tree, itself first. -/
def subtrees : Tree α → List (Tree α)
  | node a ts => node a ts :: subtreesForest ts

def subtreesForest : List (Tree α) → List (Tree α)
  | [] => []
  | t :: ts => subtrees t ++ subtreesForest ts

end

mutual

theorem map_value_subtrees : (t : Tree α) → t.subtrees.map value = t.preorder
  | node a ts => by
    rw [subtrees, preorder, List.map_cons, map_value_subtreesForest ts]
    rfl

theorem map_value_subtreesForest :
    (ts : List (Tree α)) → (subtreesForest ts).map value = preorderForest ts
  | [] => rfl
  | t :: ts => by
    rw [subtreesForest, preorderForest, List.map_append, map_value_subtrees t,
      map_value_subtreesForest ts]

end

theorem value_mem_preorderForest {t : Tree α} {ts : List (Tree α)} (h : t ∈ subtreesForest ts) :
    t.value ∈ preorderForest ts := by
  rw [← map_value_subtreesForest]
  exact List.mem_map_of_mem h

/-- A subtree of a forest is one of its trees or stands below another subtree. -/
theorem mem_or_mem_children_of_mem_subtreesForest {t : Tree α} {ts : List (Tree α)}
    (h : t ∈ subtreesForest ts) : t ∈ ts ∨ ∃ parent ∈ subtreesForest ts, t ∈ parent.children := by
  match ts with
  | [] => exact absurd h List.not_mem_nil
  | node a below :: rest =>
      rcases List.mem_append.mp h with h | h
      · rcases List.mem_cons.mp h with rfl | h
        · exact .inl List.mem_cons_self
        · right
          rcases mem_or_mem_children_of_mem_subtreesForest h with h | ⟨parent, hparent, h⟩
          · exact ⟨node a below, List.mem_cons_self, h⟩
          · exact ⟨parent, List.mem_append_left _ (List.mem_cons_of_mem _ hparent), h⟩
      · rcases mem_or_mem_children_of_mem_subtreesForest h with h | ⟨parent, hparent, h⟩
        · exact .inl (List.mem_cons_of_mem _ h)
        · exact .inr ⟨parent, List.mem_append_right _ hparent, h⟩

@[simp] theorem value_map (f : α → β) (t : Tree α) : (t.map f).value = f t.value := by
  cases t
  rfl

@[simp] theorem children_map (f : α → β) (t : Tree α) :
    (t.map f).children = mapForest f t.children := by
  cases t
  rfl

theorem mapForest_eq_map (f : α → β) (ts : List (Tree α)) : mapForest f ts = ts.map (map f) := by
  induction ts with
  | nil => rfl
  | cons t ts ih => rw [mapForest, ih, List.map_cons]

mutual

/-- Values that are mapped away and back are where they were. -/
theorem map_map_eq_self {f : α → β} {g : β → α} (h : ∀ a, g (f a) = a) :
    (t : Tree α) → (t.map f).map g = t
  | node a ts => by rw [map, map, h, mapForest_mapForest_eq_self h ts]

theorem mapForest_mapForest_eq_self {f : α → β} {g : β → α} (h : ∀ a, g (f a) = a) :
    (ts : List (Tree α)) → mapForest g (mapForest f ts) = ts
  | [] => rfl
  | t :: ts => by
    rw [mapForest, mapForest, map_map_eq_self h t, mapForest_mapForest_eq_self h ts]

end

mutual

theorem subtrees_map (f : α → β) : (t : Tree α) → (t.map f).subtrees = t.subtrees.map (map f)
  | node a ts => by
    rw [map, subtrees, subtrees, List.map_cons, subtreesForest_mapForest f ts, map]

theorem subtreesForest_mapForest (f : α → β) :
    (ts : List (Tree α)) → subtreesForest (mapForest f ts) = (subtreesForest ts).map (map f)
  | [] => rfl
  | t :: ts => by
    rw [mapForest, subtreesForest, subtreesForest, List.map_append, subtrees_map f t,
      subtreesForest_mapForest f ts]

end

/-! ## Paths -/

mutual

/-- The paths from the root down to every node, in preorder. -/
def paths : Tree α → List (List α)
  | node a ts => [a] :: (pathsForest ts).map (a :: ·)

def pathsForest : List (Tree α) → List (List α)
  | [] => []
  | t :: ts => paths t ++ pathsForest ts

end

theorem pathsForest_append (ts us : List (Tree α)) :
    pathsForest (ts ++ us) = pathsForest ts ++ pathsForest us := by
  induction ts with
  | nil => rfl
  | cons t ts ih => rw [List.cons_append, pathsForest, pathsForest, ih, List.append_assoc]

mutual

theorem ne_nil_of_mem_paths : (t : Tree α) → ∀ path ∈ t.paths, path ≠ []
  | node a ts, path, hpath => by
    rcases List.mem_cons.mp hpath with rfl | hpath
    · exact List.cons_ne_nil a []
    · obtain ⟨rest, _, rfl⟩ := List.mem_map.mp hpath
      exact List.cons_ne_nil a rest

theorem ne_nil_of_mem_pathsForest : (ts : List (Tree α)) → ∀ path ∈ pathsForest ts, path ≠ []
  | [], path, hpath => absurd hpath List.not_mem_nil
  | t :: ts, path, hpath => by
    rcases List.mem_append.mp hpath with hpath | hpath
    · exact ne_nil_of_mem_paths t path hpath
    · exact ne_nil_of_mem_pathsForest ts path hpath

end

mutual

theorem mem_preorder_of_mem_path : (t : Tree α) → ∀ path ∈ t.paths, ∀ b ∈ path, b ∈ t.preorder
  | node a ts, path, hpath, b, hb => by
    rcases List.mem_cons.mp hpath with rfl | hpath
    · rw [List.mem_singleton.mp hb]
      exact List.mem_cons_self
    · obtain ⟨rest, hrest, rfl⟩ := List.mem_map.mp hpath
      rcases List.mem_cons.mp hb with rfl | hb
      · exact List.mem_cons_self
      · exact List.mem_cons_of_mem a (mem_preorderForest_of_mem_path ts rest hrest b hb)

theorem mem_preorderForest_of_mem_path :
    (ts : List (Tree α)) → ∀ path ∈ pathsForest ts, ∀ b ∈ path, b ∈ preorderForest ts
  | [], path, hpath, _, _ => absurd hpath List.not_mem_nil
  | t :: ts, path, hpath, b, hb => by
    rcases List.mem_append.mp hpath with hpath | hpath
    · exact List.mem_append_left _ (mem_preorder_of_mem_path t path hpath b hb)
    · exact List.mem_append_right _ (mem_preorderForest_of_mem_path ts path hpath b hb)

end

/-- What stands above all paths does not change where they end. -/
theorem filterMap_getLast?_below (a : α) {ps : List (List α)} (h : ∀ path ∈ ps, path ≠ []) :
    (ps.map (a :: ·)).filterMap List.getLast? = ps.filterMap List.getLast? := by
  induction ps with
  | nil => rfl
  | cons path ps ih =>
      obtain ⟨b, rest, rfl⟩ := List.exists_cons_of_ne_nil (h path List.mem_cons_self)
      have hrest := ih fun path hpath ↦ h path (List.mem_cons_of_mem _ hpath)
      rw [List.map_cons, List.filterMap_cons, List.filterMap_cons, List.getLast?_cons_cons, hrest]

mutual

/-- The paths of a tree end in its values, in their order. -/
theorem filterMap_getLast?_paths : (t : Tree α) → t.paths.filterMap List.getLast? = t.preorder
  | node a ts => by
    have hbelow := filterMap_getLast?_below a (ne_nil_of_mem_pathsForest ts)
    rw [paths, preorder, ← filterMap_getLast?_pathsForest ts, ← hbelow]
    rfl

theorem filterMap_getLast?_pathsForest :
    (ts : List (Tree α)) → (pathsForest ts).filterMap List.getLast? = preorderForest ts
  | [] => rfl
  | t :: ts => by
    rw [pathsForest, preorderForest, List.filterMap_append, filterMap_getLast?_paths t,
      filterMap_getLast?_pathsForest ts]

end

/-! ## Contexts -/

/-- A forest with a gap in it. -/
inductive Context (α : Type) where
  | gap
  | beside (before : List (Tree α)) (inner : Context α) (after : List (Tree α))
  | under (value : α) (inner : Context α)

namespace Context

/-- The forest with trees put into the gap. -/
def plug (ts : List (Tree α)) : Context α → List (Tree α)
  | gap => ts
  | beside before inner after => before ++ inner.plug ts ++ after
  | under a inner => [node a (inner.plug ts)]

/-- What comes before the gap in preorder. -/
def upTo : Context α → List (Tree α)
  | gap => []
  | beside before inner _ => before ++ inner.upTo
  | under a inner => [node a inner.upTo]

/-- How many values stand above the gap. -/
def depth : Context α → Nat
  | gap => 0
  | beside _ inner _ => inner.depth
  | under _ inner => inner.depth + 1

end Context

end DesignToWeb.Tree
