/-!
# Trees

Ordered trees with a value at every node, for designs before and after they
are read.
-/

namespace DesignToWeb

inductive Tree (α : Type) where
  | node (value : α) (children : List (Tree α))

namespace Tree

variable {α β : Type}

def value : Tree α → α
  | node a _ => a

def children : Tree α → List (Tree α)
  | node _ ts => ts

mutual

def map (f : α → β) : Tree α → Tree β
  | node a ts => node (f a) (mapForest f ts)

def mapForest (f : α → β) : List (Tree α) → List (Tree β)
  | [] => []
  | t :: ts => map f t :: mapForest f ts

end

mutual

/-- The values from the root down, each before those below it, siblings in order. -/
def preorder : Tree α → List α
  | node a ts => a :: preorderForest ts

def preorderForest : List (Tree α) → List α
  | [] => []
  | t :: ts => preorder t ++ preorderForest ts

end

theorem preorderForest_append (ts us : List (Tree α)) :
    preorderForest (ts ++ us) = preorderForest ts ++ preorderForest us := by
  induction ts with
  | nil => rfl
  | cons t rest ih => simp only [List.cons_append, preorderForest, ih, List.append_assoc]

mutual

theorem preorder_map (f : α → β) : (t : Tree α) → (t.map f).preorder = t.preorder.map f
  | node a ts => by
    simp only [map, preorder, List.map_cons, preorderForest_mapForest f ts]

theorem preorderForest_mapForest (f : α → β) :
    (ts : List (Tree α)) → preorderForest (mapForest f ts) = (preorderForest ts).map f
  | [] => rfl
  | t :: ts => by
    simp only [mapForest, preorderForest, List.map_append, preorder_map f t,
      preorderForest_mapForest f ts]

end

end Tree
end DesignToWeb
