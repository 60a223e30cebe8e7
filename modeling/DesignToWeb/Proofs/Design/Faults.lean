import DesignToWeb.Design.Document
import DesignToWeb.Proofs.Design.Malformed

/-!
# Faults of files

A file without pages is refused.  Any other file is read, unless a value in it is
malformed or a page has a number or `true` for its children, which cannot be
walked.
-/

namespace DesignToWeb.Design

variable {P : Fault → Prop}

/-! ## The walk -/

theorem isSkipped_failsBy (node : Attributes) : FailsBy node.Malformed (isSkipped node) := by
  rw [isSkipped]
  split
  · exact .ok _
  · cases h : node.get "type" with
    | arr _ | obj _ => exact .error (.name (by decide) (Attributes.mem_of_get h nofun) rfl)
    | _ => exact .ok _

mutual

/-- The reading of a tree fails by what is wrong with its nodes, or with the box of the parent. -/
theorem readTree_failsBy : (tree : Tree Attributes) → (parentBox : Option Attributes) →
    (∀ box, parentBox = some box → box.Malformed ≤ P) →
    (∀ node ∈ tree.preorder, node.Malformed ≤ P) → (inFlow : Bool) → (ancestors : List String) →
    FailsBy P (readTree parentBox inFlow ancestors tree)
  | .node node children, parentBox, hparent, hnodes, inFlow, ancestors => by
    rw [Tree.preorder, List.forall_mem_cons] at hnodes
    rw [readTree]
    split
    · exact .pure _
    · refine .bind (readElement?_failsBy hnodes.1 hparent inFlow) fun element? _ ↦ ?_
      split
      · exact .pure _
      · -- the box that is handed down is a field of this node
        have hbox (box : Attributes) (h : boundingBox? node = some box) : box.Malformed ≤ P :=
          (boundingBox?_malformed h).trans hnodes.1
        exact .bind (readForest_failsBy children (boundingBox? node) hbox hnodes.2 _ _)
          fun _ _ ↦ .pure _

theorem readForest_failsBy : (trees : List (Tree Attributes)) → (parentBox : Option Attributes) →
    (∀ box, parentBox = some box → box.Malformed ≤ P) →
    (∀ node ∈ Tree.preorderForest trees, node.Malformed ≤ P) → (inFlow : Bool) →
    (ancestors : List String) → FailsBy P (readForest parentBox inFlow ancestors trees)
  | [], _, _, _, _, _ => .pure _
  | .node node children :: rest, parentBox, hparent, hnodes, inFlow, ancestors => by
    rw [Tree.preorderForest, List.forall_mem_append] at hnodes
    have hrest := readForest_failsBy rest parentBox hparent hnodes.2 inFlow ancestors
    rw [readForest]
    refine .bind ((isSkipped_failsBy node).mono (hnodes.1 node List.mem_cons_self)) fun _ _ ↦ ?_
    split
    · exact hrest
    · refine .bind ?_ fun _ _ ↦ .bind hrest fun _ _ ↦ .pure _
      exact readTree_failsBy (.node node children) parentBox hparent hnodes.1 inFlow ancestors

end

/-! ## Files -/

/-- What is wrong with a page whose children are a number or `true`. -/
def Unwalkable (page : Attributes) (fault : Fault) : Prop :=
  ∃ children, page.get "children" = children ∧ (children.isNumber = true ∨ children = .bool true) ∧
    children.isGiven = true ∧ fault = .noList children

theorem checkWalkable_failsBy (page : Attributes) :
    FailsBy (Unwalkable page) (checkWalkable (page.get "children")) := by
  have hgiven {children : Json} (h : page.get "children" = children)
      (hnumber : children.isGiven = true → children.isNumber = true ∨ children = .bool true) :
      FailsBy (Unwalkable page)
        (if children.isGiven then .error (.noList children) else .ok () : Except Fault Unit) := by
    split
    · rename_i hchildren
      exact .error ⟨children, h, hnumber hchildren, hchildren, rfl⟩
    · exact .ok ()
  cases h : page.get "children" with
  | int _ | float _ | nan => exact hgiven h fun _ ↦ .inl rfl
  | bool b => exact hgiven h fun hb ↦ .inr (congrArg Json.bool hb)
  | _ => exact .ok ()

theorem readPage_failsBy {page : Tree Attributes}
    (hnodes : ∀ node ∈ page.preorder, node.Malformed ≤ P) (hwalk : Unwalkable page.value ≤ P) :
    FailsBy P (readPage page) := by
  obtain ⟨node, children⟩ := page
  rw [Tree.preorder, List.forall_mem_cons] at hnodes
  rw [readPage]
  refine .bind ((isSkipped_failsBy node).mono hnodes.1) fun _ _ ↦ ?_
  split
  · exact .pure _
  · exact .bind ((checkWalkable_failsBy node).mono hwalk) fun _ _ ↦
      readForest_failsBy children none (fun _ hbox ↦ nomatch hbox) hnodes.2 false _

theorem readPages_failsBy {pages : List (Tree Attributes)}
    (hnodes : ∀ node ∈ Tree.preorderForest pages, node.Malformed ≤ P)
    (hwalk : ∀ page ∈ pages, Unwalkable page.value ≤ P) : FailsBy P (readPages pages) := by
  induction pages with
  | nil => exact .pure _
  | cons page rest ih =>
      rw [Tree.preorderForest, List.forall_mem_append] at hnodes
      rw [List.forall_mem_cons] at hwalk
      exact .bind (readPage_failsBy hnodes.1 hwalk.1) fun _ _ ↦
        .bind (ih hnodes.2 hwalk.2) fun _ _ ↦ .pure _

mutual

/-- What is wrong with a node of a tree is wrong with the value that the tree is made of. -/
theorem treeOf?_malformed : (value : Json) → {tree : Tree Attributes} → treeOf? value = some tree →
    ∀ node ∈ tree.preorder, node.Malformed ≤ value.Malformed
  | .obj fields, _, h, node, hnode => by
    rw [treeOf?] at h
    obtain rfl := Option.some.inj h
    rw [Tree.preorder] at hnode
    rcases List.mem_cons.mp hnode with rfl | hnode
    · exact le_rfl
    · exact childTrees_malformed fields node hnode
  | .null, _, h, _, _ | .bool _, _, h, _, _ | .int _, _, h, _, _ | .float _, _, h, _, _
  | .nan, _, h, _, _ | .str _, _, h, _, _ | .arr _, _, h, _, _ => by
    rw [treeOf?.eq_def] at h
    exact nomatch h

theorem childTrees_malformed : (fields : List (String × Json)) →
    ∀ node ∈ Tree.preorderForest (childTrees fields), node.Malformed ≤ (Json.obj fields).Malformed
  | [], _, hnode => nomatch hnode
  | (key, value) :: rest, node, hnode => by
    rw [childTrees] at hnode
    split at hnode
    · exact fun fault hfault ↦
        .field List.mem_cons_self (itemTrees_malformed value node hnode fault hfault)
    · -- the list of children stands further on
      exact (childTrees_malformed rest node hnode).trans (Json.malformed_obj_cons _ rest)

theorem itemTrees_malformed : (value : Json) →
    ∀ node ∈ Tree.preorderForest (itemTrees value), node.Malformed ≤ value.Malformed
  | .arr items, node, hnode => by
    rw [itemTrees] at hnode
    exact objectTrees_malformed items node hnode
  | .null, _, h | .bool _, _, h | .int _, _, h | .float _, _, h | .nan, _, h | .str _, _, h
  | .obj _, _, h => by
    rw [itemTrees.eq_def] at h
    exact nomatch h

theorem objectTrees_malformed : (items : List Json) →
    ∀ node ∈ Tree.preorderForest (objectTrees items), node.Malformed ≤ (Json.arr items).Malformed
  | [], _, hnode => nomatch hnode
  | item :: rest, node, hnode => by
    have hrest := fun hnode ↦
      (objectTrees_malformed rest node hnode).trans (Json.malformed_arr_cons item rest)
    rw [objectTrees] at hnode
    split at hnode
    · rename_i tree htree
      rcases List.mem_append.mp hnode with hnode | hnode
      · exact fun fault hfault ↦
          .item List.mem_cons_self (treeOf?_malformed item htree node hnode fault hfault)
      · exact hrest hnode
    · exact hrest hnode

end

theorem value_mem_of_mem_objectTrees {items : List Json} {page : Tree Attributes}
    (h : page ∈ objectTrees items) : page.value ∈ (Json.arr items).objects := by
  induction items with
  | nil => exact nomatch h
  | cons item rest ih =>
      cases item with
      | obj fields =>
          rcases List.mem_cons.mp h with rfl | h
          · exact List.mem_cons_self
          · exact List.mem_cons_of_mem _ (ih h)
      | _ => exact ih h

/-- Whether a file has a list of pages: the file is an object, and so is its document, which is
the value of its field of that name or else the file itself, with a list of children. -/
def HasPages (file : Json) (pages : List Json) : Prop :=
  ∃ fields document, file = .obj fields ∧
    (((⟨fields⟩ : Attributes).get? "document").getD file) = .obj document ∧
    (⟨document⟩ : Attributes).get "children" = .arr pages

theorem HasPages.pages?_eq {file : Json} {pages : List Json} (h : HasPages file pages) :
    pages? file = .ok (.arr pages) := by
  obtain ⟨fields, document, rfl, hdocument, hpages⟩ := h
  simp only [pages?, hdocument, hpages]

theorem HasPages.malformed_le {file : Json} {pages : List Json} (h : HasPages file pages) :
    (Json.arr pages).Malformed ≤ file.Malformed := by
  obtain ⟨fields, document, rfl, hdocument, hpages⟩ := h
  have hinner := (⟨document⟩ : Attributes).malformed_get "children"
  rw [hpages] at hinner
  refine hinner.trans ?_
  cases hgiven : (⟨fields⟩ : Attributes).get? "document" with
  | none =>
      rw [hgiven] at hdocument
      obtain rfl := Json.obj.inj hdocument
      exact le_rfl
  | some value =>
      rw [hgiven] at hdocument
      obtain rfl : value = .obj document := hdocument
      exact Attributes.malformed_get? hgiven

/-- Whether a fault says that a file has no pages. -/
def RefusesFile (fault : Fault) : Prop :=
  fault = .documentNoObject ∨ fault = .documentWithoutChildren

theorem pages?_refuses {file : Json} (h : ¬ ∃ pages, HasPages file pages) :
    ∃ fault, pages? file = .error fault ∧ RefusesFile fault := by
  cases file with
  | obj fields =>
      rw [pages?]
      split
      · rename_i document hdocument
        split
        · rename_i pages hpages
          exact absurd ⟨pages, fields, document, rfl, hdocument, hpages⟩ h
        · exact ⟨_, rfl, .inr rfl⟩
      · exact ⟨_, rfl, .inr rfl⟩
  | _ => exact ⟨_, rfl, .inl rfl⟩

theorem HasPages.failsBy {file : Json} {pages : List Json} (h : HasPages file pages) :
    FailsBy (fun fault ↦ file.Malformed fault ∨
      ∃ page ∈ (Json.arr pages).objects, Unwalkable page fault) (readDocument file) := by
  rw [readDocument, h.pages?_eq]
  refine .bind (.ok _) fun value hvalue ↦ .bind (readPages_failsBy ?_ ?_) fun _ _ ↦ .pure _
  all_goals obtain rfl := Except.ok.inj hvalue
  · intro node hnode fault hfault
    exact .inl (h.malformed_le fault (itemTrees_malformed _ node hnode fault hfault))
  · intro page hpage fault hfault
    exact .inr ⟨page.value, value_mem_of_mem_objectTrees hpage, hfault⟩

theorem not_refusesFile_of_malformed {value : Json} {fault : Fault} (h : value.Malformed fault) :
    ¬ RefusesFile fault := by
  induction h with
  | integer _ => exact nofun
  | name _ _ _ => exact nofun
  | item _ _ ih => exact ih
  | field _ _ ih => exact ih

/-- A file is refused exactly when it has no pages.  A file with pages is read, unless something is
wrong with a value in it or with a page, and then the reading ends with that. -/
theorem readDocument_cases (file : Json) :
    ((∃ fault, readDocument file = .error fault ∧ RefusesFile fault) ↔
        ¬ ∃ pages, HasPages file pages) ∧
      ∀ pages, HasPages file pages →
        (∃ document, readDocument file = .ok document) ∨
          ∃ fault, readDocument file = .error fault ∧
            (file.Malformed fault ∨ ∃ page ∈ (Json.arr pages).objects, Unwalkable page fault) := by
  refine ⟨⟨?_, fun h ↦ ?_⟩, fun pages hpages ↦ ?_⟩
  · rintro ⟨fault, hfault, hrefuses⟩ ⟨pages, hpages⟩
    rcases hpages.failsBy fault hfault with hmalformed | ⟨_, _, _, _, _, _, rfl⟩
    · exact not_refusesFile_of_malformed hmalformed hrefuses
    · exact hrefuses.elim nofun nofun
  · obtain ⟨fault, hfault, hrefuses⟩ := pages?_refuses h
    refine ⟨fault, ?_, hrefuses⟩
    rw [readDocument, hfault]
    rfl
  · cases hread : readDocument file with
    | ok document => exact .inl ⟨document, rfl⟩
    | error fault => exact .inr ⟨fault, rfl, hpages.failsBy fault hread⟩

def frameFile (width : Json) : Json :=
  .obj [("children", .arr [.obj [("children", .arr [.obj [("type", .str "FRAME"),
    ("absoluteBoundingBox", .obj [("width", width)])]])]])]

theorem hasPages_frameFile (width : Json) : ∃ pages, HasPages (frameFile width) pages :=
  ⟨_, _, _, rfl, rfl, rfl⟩

def hugeWidth : Json := .int (tenTo 309)

def isTooLarge : Except Fault Document → Bool
  | .error .integerTooLarge => true
  | _ => false

theorem eq_of_isTooLarge {reading : Except Fault Document} (h : isTooLarge reading = true) :
    reading = .error .integerTooLarge := by
  rw [isTooLarge.eq_def] at h
  split at h
  · rfl
  · exact nomatch h

theorem readDocument_hugeWidth :
    readDocument (frameFile hugeWidth) = .error .integerTooLarge :=
  eq_of_isTooLarge (by decide +kernel)

theorem readDocument_cases_hugeWidth : (frameFile hugeWidth).Malformed .integerTooLarge := by
  obtain ⟨pages, hpages⟩ := hasPages_frameFile hugeWidth
  rcases (readDocument_cases (frameFile hugeWidth)).2 pages hpages with
    ⟨document, hread⟩ | ⟨fault, hread, h⟩
  · exact nomatch readDocument_hugeWidth.symm.trans hread
  · obtain rfl := Except.error.inj (readDocument_hugeWidth.symm.trans hread)
    exact h.resolve_right fun ⟨_, _, _, _, _, _, hfault⟩ ↦ nomatch hfault

/-- Not every file with pages is read. -/
theorem not_readDocument_ok : ¬ ∀ file : Json,
    ((∃ fault, readDocument file = .error fault ∧ RefusesFile fault) ↔
        ¬ ∃ pages, HasPages file pages) ∧
      ∀ pages, HasPages file pages → ∃ document, readDocument file = .ok document := by
  intro h
  obtain ⟨pages, hpages⟩ := hasPages_frameFile hugeWidth
  obtain ⟨document, hread⟩ := (h (frameFile hugeWidth)).2 pages hpages
  exact nomatch readDocument_hugeWidth.symm.trans hread

end DesignToWeb.Design
