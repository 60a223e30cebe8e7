import DesignToWeb.Proofs.Design.Paints
import DesignToWeb.Proofs.Design.Walk

/-!
# Which nodes are in a scene

A node has an element in the scene when the walk keeps it and every node above
it up to its page, and on no other condition.  The paths of the scene are the
kept paths of the document, element by node and in the same order.  Since paths
are listed in preorder, every element stands below the element of its parent,
and siblings keep their order.
-/

namespace DesignToWeb.Design

open Outcome

/-! ## Kept paths -/

/-- Whether the walk keeps every node of a path that goes down from some place. -/
def KeptAlong : Surroundings → List Attributes → Prop
  | _, [] => True
  | s, node :: rest => IsKept s node ∧ KeptAlong (s.below node) rest

/-- Whether the walk keeps every node of a path below its page, and there is such a node. -/
def IsKeptPath : List Attributes → Prop
  | page :: node :: rest => isPassedOver page = false ∧ KeptAlong ⟨page, []⟩ (node :: rest)
  | _ => False

instance decidableKeptAlong : (s : Surroundings) → (path : List Attributes) →
    Decidable (KeptAlong s path)
  | _, [] => .isTrue trivial
  | s, node :: rest =>
    let _ := decidableKeptAlong (s.below node) rest
    inferInstanceAs (Decidable (IsKept s node ∧ KeptAlong (s.below node) rest))

instance : DecidablePred IsKeptPath
  | [] => .isFalse id
  | [_] => .isFalse id
  | page :: node :: rest =>
    inferInstanceAs (Decidable (isPassedOver page = false ∧ KeptAlong ⟨page, []⟩ (node :: rest)))

theorem filter_keptAlong_cons {s : Surroundings} {node : Attributes} (h : IsKept s node)
    (ps : List (List Attributes)) :
    (ps.map (node :: ·)).filter (KeptAlong s ·) =
      (ps.filter (KeptAlong (s.below node) ·)).map (node :: ·) := by
  rw [List.filter_map]
  congr 1
  refine List.filter_congr fun path _ ↦ ?_
  exact decide_eq_decide.mpr (and_iff_right h)

/-- A node that is not kept goes with all that is below it. -/
theorem keptForest_cons (s : Surroundings) (node : Attributes)
    (children rest : List (Tree Attributes)) :
    keptForest s.keys (.node node children :: rest) =
      (if IsKept s node then [.node node (keptForest (s.below node).keys children)] else []) ++
        keptForest s.keys rest := by
  rw [keptForest, keptTree?, Tree.value, Surroundings.keys_below]
  simp only [isKept_iff]
  cases isPassedOver node with
  | true => simp
  | false => cases repeatedKey? s.keys node <;> cases kind? node <;> simp

mutual

/-- The kept paths of a tree are the paths of what is kept of it. -/
theorem filter_keptAlong_paths (s : Surroundings) : (node : Attributes) →
    (children : List (Tree Attributes)) →
    (Tree.node node children).paths.filter (KeptAlong s ·) = Tree.pathsForest
      (if IsKept s node then [.node node (keptForest (s.below node).keys children)] else [])
  | node, children => by
    by_cases hkept : IsKept s node
    · rw [if_pos hkept, Tree.paths, List.filter_cons_of_pos (by simp [KeptAlong, hkept]),
        filter_keptAlong_cons hkept, filter_keptAlong_pathsForest (s.below node) children,
        Tree.pathsForest, Tree.pathsForest, List.append_nil, Tree.paths]
    · rw [if_neg hkept, Tree.pathsForest, List.filter_eq_nil_iff]
      intro path hpath
      rcases List.mem_cons.mp hpath with rfl | hpath
      · simp [KeptAlong, hkept]
      · obtain ⟨rest, _, rfl⟩ := List.mem_map.mp hpath
        simp [KeptAlong, hkept]

theorem filter_keptAlong_pathsForest (s : Surroundings) : (trees : List (Tree Attributes)) →
    (Tree.pathsForest trees).filter (KeptAlong s ·) = Tree.pathsForest (keptForest s.keys trees)
  | [] => rfl
  | .node node children :: rest => by
    rw [Tree.pathsForest, List.filter_append, filter_keptAlong_paths s node children,
      filter_keptAlong_pathsForest s rest, ← Tree.pathsForest_append, keptForest_cons]

end

theorem filter_isKeptPath_paths (page : Tree Attributes) :
    page.paths.filter (IsKeptPath ·) =
      (Tree.pathsForest (keptOnPage page)).map (page.value :: ·) := by
  obtain ⟨node, children⟩ := page
  have hpage : ¬ decide (IsKeptPath [node]) = true := fun h ↦ of_decide_eq_true h
  rw [Tree.paths, List.filter_cons, if_neg hpage, List.filter_map, keptOnPage, Tree.value,
    Tree.children]
  congr 1
  have hkept : ∀ path ∈ Tree.pathsForest children,
      (IsKeptPath (node :: path) ↔ isPassedOver node = false ∧ KeptAlong ⟨node, []⟩ path) := by
    intro path hpath
    cases path with
    | nil => exact absurd rfl (Tree.ne_nil_of_mem_pathsForest children [] hpath)
    | cons first rest => rfl
  by_cases hpassed : isPassedOver node = true
  · rw [if_pos hpassed, Tree.pathsForest, List.filter_eq_nil_iff]
    intro path hpath
    simp [hkept path hpath, hpassed]
  · rw [if_neg hpassed, ← Surroundings.keys_page, ← filter_keptAlong_pathsForest]
    refine List.filter_congr fun path hpath ↦ decide_eq_decide.mpr ?_
    rw [hkept path hpath]
    exact and_iff_right (Bool.eq_false_iff.mpr hpassed)

/-! ## Readings of paths -/

/-- Whether the elements of a path are read from the nodes of a path, one from each. -/
def ReadsPath : Surroundings → List Attributes → List Element → Prop
  | _, [], [] => True
  | s, node :: nodes, element :: elements =>
    (∃ warnings, readElement? node s.box? s.inFlow = .ok (some (element, warnings))) ∧
      ReadsPath (s.below node) nodes elements
  | _, _, _ => False

/-- Whether the elements of a path are read from the nodes of a path below its page. -/
def ReadsNodes : List Attributes → List Element → Prop
  | page :: nodes, elements => ReadsPath ⟨page, []⟩ nodes elements
  | [], _ => False

mutual

theorem IsReading.paths : (tree : Tree Attributes) → (element : Tree Element) →
    {s : Surroundings} → IsReading s.box? s.inFlow tree element →
    List.Forall₂ (ReadsPath s) tree.paths element.paths
  | .node node children, .node element below, s, h => by
    have hbelow := AreReadings.paths children below (s := s.below node) h.2
    rw [Tree.paths, Tree.paths]
    refine .cons ⟨h.1, trivial⟩ ?_
    rw [List.forall₂_map_left_iff, List.forall₂_map_right_iff]
    exact hbelow.imp fun nodes elements hpath ↦ ⟨h.1, hpath⟩

theorem AreReadings.paths : (trees : List (Tree Attributes)) → (elements : List (Tree Element)) →
    {s : Surroundings} → AreReadings s.box? s.inFlow trees elements →
    List.Forall₂ (ReadsPath s) (Tree.pathsForest trees) (Tree.pathsForest elements)
  | [], [], _, _ => .nil
  | [], _ :: _, _, h => h.elim
  | _ :: _, [], _, h => h.elim
  | tree :: trees, element :: elements, _, h =>
    List.rel_append (IsReading.paths tree element h.1) (AreReadings.paths trees elements h.2)

end

theorem readPage_paths {page : Tree Attributes} {elements : List (Tree Element)} {tally : Tally}
    (h : readPage page = .ok (elements, tally)) :
    List.Forall₂ ReadsNodes (page.paths.filter (IsKeptPath ·)) (Tree.pathsForest elements) := by
  have hpaths := AreReadings.paths (keptOnPage page) elements (s := ⟨page.value, []⟩)
    (readPage_areReadings h)
  rw [filter_isKeptPath_paths, List.forall₂_map_left_iff]
  exact hpaths

theorem readPages_paths {pages : List (Tree Attributes)} {scene : Scene} {tally : Tally}
    (h : readPages pages = .ok (scene, tally)) :
    List.Forall₂ ReadsNodes ((Tree.pathsForest pages).filter (IsKeptPath ·))
      (Tree.pathsForest scene) := by
  induction pages generalizing scene tally with
  | nil =>
      obtain ⟨rfl, _⟩ := Prod.mk.inj (pure_eq_ok.mp h)
      exact .nil
  | cons page rest ih =>
      obtain ⟨_, _, _, _, hhere, hrest, rfl, _⟩ := readPages_cons_eq_ok h
      rw [Tree.pathsForest, List.filter_append, Tree.pathsForest_append]
      exact List.rel_append (readPage_paths hhere) (ih hrest)

/-! ## Ids along a path -/

/-- The ids of a path, without those that are empty. -/
def givenIds (path : List Element) : List String := (path.map Element.id).filter (· ≠ "")

/-- An element whose id is not empty is known by it. -/
theorem nodeKey?_of_readElement {node : Attributes} {box? : Option Attributes} {inFlow : Bool}
    {element : Element} {warnings : List String}
    (h : readElement? node box? inFlow = .ok (some (element, warnings))) (hid : element.id ≠ "") :
    nodeKey? node = some element.id := by
  rw [(readElement?_eq_some h).id] at hid ⊢
  unfold Json.labelOrEmpty at hid ⊢
  unfold nodeKey?
  cases hgiven : (node.get "id").isGiven with
  | true => simp [hgiven]
  | false => simp [hgiven] at hid

theorem ReadsPath.givenIds_nodup {s : Surroundings} {nodes : List Attributes}
    {elements : List Element} (hread : ReadsPath s nodes elements) (hkept : KeptAlong s nodes) :
    (givenIds elements).Nodup ∧ ∀ id ∈ givenIds elements, id ∉ s.keys := by
  induction nodes generalizing s elements with
  | nil =>
      cases elements with
      | nil => exact ⟨List.nodup_nil, fun id hid ↦ absurd hid List.not_mem_nil⟩
      | cons element elements => exact hread.elim
  | cons node nodes ih =>
      cases elements with
      | nil => exact hread.elim
      | cons element elements =>
          obtain ⟨⟨warnings, hhere⟩, hrest⟩ := hread
          obtain ⟨hnodup, hfresh⟩ := ih hrest hkept.2
          simp only [Surroundings.keys_below, List.mem_append, not_or] at hfresh
          by_cases hid : element.id = ""
          · have hids : givenIds (element :: elements) = givenIds elements := by
              simp [givenIds, hid]
            rw [hids]
            exact ⟨hnodup, fun id hmem ↦ (hfresh id hmem).2⟩
          · have hids : givenIds (element :: elements) = element.id :: givenIds elements := by
              simp [givenIds, hid]
            -- the id is a key to all that stands below, where a kept node repeats none
            have hkey := nodeKey?_of_readElement hhere hid
            rw [hids]
            refine ⟨List.nodup_cons.mpr ⟨fun hmem ↦ ?_, hnodup⟩, ?_⟩
            · exact (hfresh _ hmem).1 (by rw [hkey]; exact List.mem_singleton_self _)
            · rintro id hmem
              rcases List.mem_cons.mp hmem with rfl | hmem
              · exact hkept.1.fresh _ hkey
              · exact (hfresh id hmem).2

theorem givenIds_nodup_of_readsNodes {path : List Attributes} {elements : List Element}
    (hkept : IsKeptPath path) (hread : ReadsNodes path elements) : (givenIds elements).Nodup := by
  match path, hkept with
  | page :: node :: rest, hkept => exact (ReadsPath.givenIds_nodup hread hkept.2).1

/-! ## How warnings start -/

theorem isPrefixOf_toList_append (start rest : String) :
    start.toList.isPrefixOf (start ++ rest).toList = true := by
  rw [String.toList_append]
  exact List.isPrefixOf_iff_prefix.mpr (List.prefix_append _ _)

/-- No text starts in two ways, if neither is the beginning of the other. -/
theorem isPrefixOf_toList_append_eq_false {start other : String}
    (h : ¬ (start.toList <+: other.toList ∨ other.toList <+: start.toList)) (rest : String) :
    start.toList.isPrefixOf (other ++ rest).toList = false := by
  rw [String.toList_append]
  refine Bool.eq_false_iff.mpr fun hstart ↦ h ?_
  exact List.prefix_or_prefix_of_prefix (List.isPrefixOf_iff_prefix.mp hstart)
    (List.prefix_append _ _)

/-! ## Warnings about repeated ids -/

def isCycleWarning (warning : String) : Bool :=
  "Cycle detected at node ".toList.isPrefixOf warning.toList

/-- The warning of a visit to a node whose id stands above it. -/
def Visit.cycleWarning? (v : Visit) : Option String :=
  match v.fate with
  | .repeated key => some (cycleWarning key)
  | _ => none

theorem isCycleWarning_cycleWarning (key : String) : isCycleWarning (cycleWarning key) = true := by
  unfold isCycleWarning cycleWarning
  rw [String.append_assoc]
  exact isPrefixOf_toList_append _ _

theorem isCycleWarning_warning (l : PaintList) (entry : Attributes) :
    isCycleWarning (l.warning entry) = false := by
  unfold isCycleWarning PaintList.warning
  rw [String.append_assoc, String.append_assoc]
  exact isPrefixOf_toList_append_eq_false (by decide) _

theorem Yields.cycleWarnings {v : Visit} {element? : Option Element} {tally : Tally}
    (h : Yields v element? tally) :
    tally.warnings.filter isCycleWarning = v.cycleWarning?.toList := by
  cases h with
  | passedOver h => rw [Visit.cycleWarning?, h]; rfl
  | repeated h =>
      rw [Visit.cycleWarning?, h, List.filter_cons_of_pos (isCycleWarning_cycleWarning _)]
      rfl
  | unrenderable h => rw [Visit.cycleWarning?, h]; rfl
  | kept h hread =>
      rw [Visit.cycleWarning?, h]
      refine List.filter_eq_nil_iff.mpr fun warning hwarning ↦ ?_
      have hwarnings := (readStyle_drawsPaints (readElement?_eq_some hread).style).2
      obtain ⟨l, entry, rfl⟩ := exists_of_mem_paintWarnings (hwarnings ▸ hwarning)
      exact Bool.eq_false_iff.mp (isCycleWarning_warning l entry)

theorem AllYield.cycleWarnings {vs : List Visit} {elements : List Element} {tally : Tally}
    (h : AllYield vs elements tally) :
    tally.warnings.filter isCycleWarning = vs.filterMap Visit.cycleWarning? := by
  induction h with
  | nil => rfl
  | cons hv _ ih =>
      rw [Tally.warnings_add, List.filter_append, hv.cycleWarnings, ih, List.filterMap_cons]
      cases Visit.cycleWarning? _ <;> rfl

/-! ## Scenes -/

/-- A scene has an element for every node that is kept along its whole path, at the place of the
node, and no others.  Ids do not repeat along its paths, and there is one warning for every visit
that is cut short because an id does. -/
theorem readDocument_paths {file : Json} {document : Document}
    (h : readDocument file = .ok document) :
    List.Forall₂ ReadsNodes ((nodePaths file).filter (IsKeptPath ·))
        (Tree.pathsForest document.scene) ∧
      (∀ path ∈ Tree.pathsForest document.scene, (givenIds path).Nodup) ∧
      document.tally.warnings.filter isCycleWarning =
        (visits file).filterMap Visit.cycleWarning? := by
  obtain ⟨pages, hpages, hscene⟩ := readDocument_eq_ok h
  have hpaths := readPages_paths hscene
  rw [← nodePaths_eq hpages] at hpaths
  refine ⟨hpaths, ?_, (readDocument_yields h).cycleWarnings⟩
  have hkept : ∀ nodes ∈ (nodePaths file).filter (IsKeptPath ·), IsKeptPath nodes :=
    fun nodes hnodes ↦ of_decide_eq_true (List.mem_filter.mp hnodes).2
  have hids : List.Forall₂ (fun path _ ↦ (givenIds path).Nodup ∧ True)
      (Tree.pathsForest document.scene) ((nodePaths file).filter (IsKeptPath ·)) := by
    refine List.Forall₂.flip (((List.forall₂_and_left _ _).mpr ⟨hkept, hpaths⟩).imp ?_)
    exact fun nodes path hpath ↦ ⟨givenIds_nodup_of_readsNodes hpath.1 hpath.2, trivial⟩
  exact ((List.forall₂_and_left _ _).mp hids).1

/-- A card with two columns.  Both hold a label with the same id, and the first holds the card once
more; a number, a hidden label and a film stand beside the columns. -/
def cardInItself : Json :=
  .obj [("children", .arr [.obj [("id", .str "0:1"), ("children", .arr [
    .obj [("id", .str "1:1"), ("type", .str "FRAME"), ("children", .arr [
      .obj [("id", .str "1:2"), ("type", .str "FRAME"), ("children", .arr [
        .obj [("id", .str "1:1"), ("type", .str "FRAME"), ("children", .arr [
          .obj [("id", .str "1:9"), ("type", .str "TEXT")]])],
        .obj [("id", .int 7), ("type", .str "TEXT")]])],
      .int 5,
      .obj [("id", .str "1:3"), ("type", .str "TEXT"), ("visible", .bool false)],
      .obj [("id", .str "1:4"), ("type", .str "FILM"), ("children", .arr [
        .obj [("id", .str "1:5"), ("type", .str "TEXT")]])],
      .obj [("id", .str "1:6"), ("type", .str "FRAME"), ("children", .arr [
        .obj [("id", .str "7"), ("type", .str "TEXT")]])]])]])]])]

/-- The card, its columns and both labels are in the scene, and one warning names the card. -/
theorem readDocument_paths_card : ∃ document, readDocument cardInItself = .ok document ∧
    (Tree.pathsForest document.scene).length = 5 ∧
    document.tally.warnings.filter isCycleWarning =
      ["Cycle detected at node 1:1; subtree skipped"] := by
  have hok : (readDocument cardInItself).toOption.isSome = true := by decide +kernel
  have hpaths : ((nodePaths cardInItself).filter (IsKeptPath ·)).length = 5 := by decide +kernel
  have hwarnings : (visits cardInItself).filterMap Visit.cycleWarning? =
      ["Cycle detected at node 1:1; subtree skipped"] := by decide +kernel
  cases hdocument : readDocument cardInItself with
  | error fault =>
      rw [hdocument] at hok
      exact Bool.noConfusion hok
  | ok document =>
      obtain ⟨hreads, _, hcycles⟩ := readDocument_paths hdocument
      exact ⟨document, rfl, hreads.length_eq.symm.trans hpaths, hcycles.trans hwarnings⟩

end DesignToWeb.Design
