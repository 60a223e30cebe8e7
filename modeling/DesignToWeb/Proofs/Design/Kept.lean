import DesignToWeb.Design.Document
import DesignToWeb.Proofs.Outcome

/-!
# Kept nodes

Which nodes of a document come to elements is settled by the nodes alone, with
nothing read of their boxes and styles.  Hidden nodes, slices and guides are
left out with all that is below them, and so are nodes whose type cannot be
rendered and nodes that stand below a node with their own id.  The scene of a
document has the shape of its kept nodes, and every element is read from the
node at its place.
-/

namespace DesignToWeb.Design

open Outcome

/-! ## The nodes that are kept -/

/-- Whether a node is hidden or never painted. -/
def isPassedOver (node : Attributes) : Bool :=
  !isVisible node || (node.get "type").isStr "SLICE" || (node.get "type").isStr "GUIDE"

theorem isSkipped_eq_ok {node : Attributes} {skipped : Bool} (h : isSkipped node = .ok skipped) :
    skipped = isPassedOver node := by
  unfold isSkipped at h
  unfold isPassedOver
  cases hvisible : isVisible node with
  | false =>
      rw [hvisible] at h
      exact (Except.ok.inj h).symm
  | true =>
      rw [hvisible] at h
      cases htype : node.get "type" with
      | str type =>
          rw [htype] at h
          exact (Except.ok.inj h).symm
      | arr items => exact nomatch (htype ▸ h)
      | obj fields => exact nomatch (htype ▸ h)
      | null | bool _ | int _ | float _ | nan =>
          rw [htype] at h
          exact (Except.ok.inj h).symm

mutual

/-- A node with the nodes that are kept below it, unless its id stands above it or its type cannot
be rendered. -/
def keptTree? (ancestors : List String) : Tree Attributes → Option (Tree Attributes)
  | .node node children =>
    if (repeatedKey? ancestors node).isSome || (kind? node).isNone then none
    else some (.node node (keptForest ((nodeKey? node).toList ++ ancestors) children))

def keptForest (ancestors : List String) : List (Tree Attributes) → List (Tree Attributes)
  | [] => []
  | tree :: rest =>
    if isPassedOver tree.value then keptForest ancestors rest
    else (keptTree? ancestors tree).toList ++ keptForest ancestors rest

end

def keptOnPage (page : Tree Attributes) : List (Tree Attributes) :=
  if isPassedOver page.value then [] else keptForest (nodeKey? page.value).toList page.children

/-- The kept nodes of a document, page after page. -/
def keptNodes (file : Json) : List (Tree Attributes) :=
  match pages? file with
  | .ok pages => (itemTrees pages).flatMap keptOnPage
  | .error _ => []

/-! ## Elements read from nodes -/

mutual

/-- Whether an element tree has the shape of a tree of nodes, and every element is what its node is
read into, given the box of the parent and whether the parent is a flow. -/
def IsReading (parentBox : Option Attributes) (inFlow : Bool) : Tree Attributes → Tree Element → Prop
  | .node node children, .node element below =>
    (∃ warnings, readElement? node parentBox inFlow = .ok (some (element, warnings))) ∧
      AreReadings (boundingBox? node) (flowDirection? node).isSome children below

def AreReadings (parentBox : Option Attributes) (inFlow : Bool) :
    List (Tree Attributes) → List (Tree Element) → Prop
  | [], [] => True
  | tree :: trees, element :: elements =>
    IsReading parentBox inFlow tree element ∧ AreReadings parentBox inFlow trees elements
  | _, _ => False

end

theorem AreReadings.append {parentBox : Option Attributes} {inFlow : Bool}
    {trees trees' : List (Tree Attributes)} {elements elements' : List (Tree Element)}
    (h : AreReadings parentBox inFlow trees elements)
    (h' : AreReadings parentBox inFlow trees' elements') :
    AreReadings parentBox inFlow (trees ++ trees') (elements ++ elements') := by
  induction trees generalizing elements with
  | nil =>
      cases elements with
      | nil => exact h'
      | cons element elements => exact h.elim
  | cons tree trees ih =>
      cases elements with
      | nil => exact h.elim
      | cons element elements => exact ⟨h.1, ih h.2⟩

/-- Whether an element is made of what the parts of a node are read into, with the warnings about
them. -/
structure ReadsAs (node : Attributes) (parentBox : Option Attributes) (inFlow : Bool)
    (element : Element) (warnings : List String) : Prop where
  kind : kind? node = some element.kind
  id : element.id = (node.get "id").labelOrEmpty
  name : element.name = (node.get "name").labelOrEmpty
  style : readStyle node element.kind = .ok (element.style, warnings)
  text : readText node element.kind element.style.typography = .ok (element.text, element.runs)
  layout : readLayout node parentBox inFlow = .ok element.layout

section ReadElement

variable {node : Attributes} {parentBox : Option Attributes} {inFlow : Bool}

/-- A type that cannot be rendered is found before anything else of the node is read. -/
theorem readElement?_eq_ok {read? : Option (Element × List String)}
    (h : readElement? node parentBox inFlow = .ok read?) :
    (read? = none ∧ kind? node = none) ∨
      ∃ element warnings, read? = some (element, warnings) ∧
        ReadsAs node parentBox inFlow element warnings := by
  unfold readElement? at h
  cases hkind : kind? node with
  | none =>
      simp only [hkind] at h
      exact Or.inl ⟨(pure_eq_ok.mp h).symm, rfl⟩
  | some kind =>
      simp only [hkind] at h
      obtain ⟨⟨style, warnings⟩, hstyle, h⟩ := bind_eq_ok.mp h
      obtain ⟨⟨text, runs⟩, htext, h⟩ := bind_eq_ok.mp h
      obtain ⟨layout, hlayout, h⟩ := bind_eq_ok.mp h
      exact Or.inr ⟨_, warnings, (pure_eq_ok.mp h).symm, hkind, rfl, rfl, hstyle, htext, hlayout⟩

theorem readElement?_eq_none (h : readElement? node parentBox inFlow = .ok none) :
    kind? node = none := by
  obtain ⟨_, hkind⟩ | ⟨_, _, hread, _⟩ := readElement?_eq_ok h
  · exact hkind
  · exact nomatch hread

theorem readElement?_eq_some {element : Element} {warnings : List String}
    (h : readElement? node parentBox inFlow = .ok (some (element, warnings))) :
    ReadsAs node parentBox inFlow element warnings := by
  obtain ⟨hread, _⟩ | ⟨_, _, hread, hreads⟩ := readElement?_eq_ok h
  · exact nomatch hread
  · obtain ⟨rfl, rfl⟩ := Prod.mk.inj (Option.some.inj hread)
    exact hreads

end ReadElement

mutual

theorem IsReading.exists_readElement : (tree : Tree Attributes) → (elements : Tree Element) →
    {parentBox : Option Attributes} → {inFlow : Bool} →
    IsReading parentBox inFlow tree elements → ∀ element ∈ elements.preorder,
    ∃ node parentBox inFlow warnings,
      readElement? node parentBox inFlow = .ok (some (element, warnings))
  | .node node children, .node own below, parentBox, inFlow, h, element, helement => by
    obtain ⟨⟨warnings, hread⟩, hbelow⟩ := h
    rcases List.mem_cons.mp helement with rfl | helement
    · exact ⟨node, parentBox, inFlow, warnings, hread⟩
    · exact AreReadings.exists_readElement children below hbelow element helement

theorem AreReadings.exists_readElement : (trees : List (Tree Attributes)) →
    (elements : List (Tree Element)) → {parentBox : Option Attributes} → {inFlow : Bool} →
    AreReadings parentBox inFlow trees elements → ∀ element ∈ Tree.preorderForest elements,
    ∃ node parentBox inFlow warnings,
      readElement? node parentBox inFlow = .ok (some (element, warnings))
  | [], [], _, _, _, element, helement => absurd helement List.not_mem_nil
  | [], _ :: _, _, _, h, _, _ => h.elim
  | _ :: _, [], _, _, h, _, _ => h.elim
  | tree :: trees, first :: rest, _, _, h, element, helement => by
    rcases List.mem_append.mp helement with helement | helement
    · exact IsReading.exists_readElement tree first h.1 element helement
    · exact AreReadings.exists_readElement trees rest h.2 element helement

end

/-! ## Steps of the reader -/

section Steps

variable {parentBox : Option Attributes} {inFlow : Bool} {ancestors : List String}

/-- A node is cut off for its id, or left out for its type, or read with all that is below it. -/
theorem readTree_eq_ok {node : Attributes} {children : List (Tree Attributes)}
    {element? : Option (Tree Element)} {tally : Tally}
    (h : readTree parentBox inFlow ancestors (.node node children) = .ok (element?, tally)) :
    (∃ key, repeatedKey? ancestors node = some key ∧ element? = none ∧
        tally = { warnings := [cycleWarning key] }) ∨
      (repeatedKey? ancestors node = none ∧ readElement? node parentBox inFlow = .ok none ∧
        element? = none ∧ tally = visited) ∨
      (repeatedKey? ancestors node = none ∧ ∃ element warnings below tallyBelow,
        readElement? node parentBox inFlow = .ok (some (element, warnings)) ∧
        readForest (boundingBox? node) (flowDirection? node).isSome
          ((nodeKey? node).toList ++ ancestors) children = .ok (below, tallyBelow) ∧
        element? = some (.node element below) ∧
        tally = visited + { warnings, stats := elementStats element } + tallyBelow) := by
  unfold readTree at h
  cases hkey : repeatedKey? ancestors node with
  | some key =>
      simp only [hkey] at h
      obtain ⟨rfl, rfl⟩ := Prod.mk.inj (pure_eq_ok.mp h)
      exact .inl ⟨key, rfl, rfl, rfl⟩
  | none =>
      simp only [hkey] at h
      obtain ⟨read?, hread, h⟩ := bind_eq_ok.mp h
      cases read? with
      | none =>
          obtain ⟨rfl, rfl⟩ := Prod.mk.inj (pure_eq_ok.mp h)
          exact .inr (.inl ⟨rfl, hread, rfl, rfl⟩)
      | some read =>
          obtain ⟨element, warnings⟩ := read
          obtain ⟨⟨below, tallyBelow⟩, hbelow, h⟩ := bind_eq_ok.mp h
          obtain ⟨rfl, rfl⟩ := Prod.mk.inj (pure_eq_ok.mp h)
          exact .inr (.inr ⟨rfl, element, warnings, below, tallyBelow, hread, hbelow, rfl, rfl⟩)

theorem readForest_cons_eq_ok {tree : Tree Attributes} {rest : List (Tree Attributes)}
    {elements : List (Tree Element)} {tally : Tally}
    (h : readForest parentBox inFlow ancestors (tree :: rest) = .ok (elements, tally)) :
    (isPassedOver tree.value = true ∧
        readForest parentBox inFlow ancestors rest = .ok (elements, tally)) ∨
      (isPassedOver tree.value = false ∧ ∃ element? tallyHere others tallyRest,
        readTree parentBox inFlow ancestors tree = .ok (element?, tallyHere) ∧
        readForest parentBox inFlow ancestors rest = .ok (others, tallyRest) ∧
        elements = element?.toList ++ others ∧ tally = tallyHere + tallyRest) := by
  unfold readForest at h
  obtain ⟨skipped, hskipped, h⟩ := bind_eq_ok.mp h
  have hskipped := isSkipped_eq_ok hskipped
  subst hskipped
  cases hpassed : isPassedOver tree.value with
  | true =>
      rw [if_pos hpassed] at h
      exact .inl ⟨rfl, h⟩
  | false =>
      rw [if_neg (Bool.eq_false_iff.mp hpassed)] at h
      obtain ⟨⟨element?, tallyHere⟩, hhere, h⟩ := bind_eq_ok.mp h
      obtain ⟨⟨others, tallyRest⟩, hrest, h⟩ := bind_eq_ok.mp h
      obtain ⟨rfl, rfl⟩ := Prod.mk.inj (pure_eq_ok.mp h)
      exact .inr ⟨rfl, element?, tallyHere, others, tallyRest, hhere, hrest, rfl, rfl⟩

theorem readPage_eq_ok {page : Tree Attributes} {elements : List (Tree Element)} {tally : Tally}
    (h : readPage page = .ok (elements, tally)) :
    (isPassedOver page.value = true ∧ elements = [] ∧ tally = {}) ∨
      (isPassedOver page.value = false ∧
        readForest none false (nodeKey? page.value).toList page.children =
          .ok (elements, tally)) := by
  unfold readPage at h
  obtain ⟨skipped, hskipped, h⟩ := bind_eq_ok.mp h
  have hskipped := isSkipped_eq_ok hskipped
  subst hskipped
  cases hpassed : isPassedOver page.value with
  | true =>
      rw [if_pos hpassed] at h
      obtain ⟨rfl, rfl⟩ := Prod.mk.inj (pure_eq_ok.mp h)
      exact .inl ⟨rfl, rfl, rfl⟩
  | false =>
      rw [if_neg (Bool.eq_false_iff.mp hpassed)] at h
      obtain ⟨_, _, h⟩ := bind_eq_ok.mp h
      exact .inr ⟨rfl, h⟩

theorem readPages_cons_eq_ok {page : Tree Attributes} {rest : List (Tree Attributes)}
    {scene : Scene} {tally : Tally} (h : readPages (page :: rest) = .ok (scene, tally)) :
    ∃ here tallyHere others tallyRest, readPage page = .ok (here, tallyHere) ∧
      readPages rest = .ok (others, tallyRest) ∧ scene = here ++ others ∧
      tally = tallyHere + tallyRest := by
  unfold readPages at h
  obtain ⟨⟨here, tallyHere⟩, hhere, h⟩ := bind_eq_ok.mp h
  obtain ⟨⟨others, tallyRest⟩, hrest, h⟩ := bind_eq_ok.mp h
  obtain ⟨rfl, rfl⟩ := Prod.mk.inj (pure_eq_ok.mp h)
  exact ⟨here, tallyHere, others, tallyRest, hhere, hrest, rfl, rfl⟩

theorem readDocument_eq_ok {file : Json} {document : Document}
    (h : readDocument file = .ok document) :
    ∃ pages, pages? file = .ok pages ∧
      readPages (itemTrees pages) = .ok (document.scene, document.tally) := by
  unfold readDocument at h
  obtain ⟨pages, hpages, h⟩ := bind_eq_ok.mp h
  obtain ⟨⟨scene, tally⟩, hscene, h⟩ := bind_eq_ok.mp h
  have hdocument := pure_eq_ok.mp h
  subst hdocument
  exact ⟨pages, hpages, hscene⟩

end Steps

/-! ## Scenes have the shape of the kept nodes -/

mutual

theorem readTree_areReadings : (tree : Tree Attributes) → {parentBox : Option Attributes} →
    {inFlow : Bool} → {ancestors : List String} → {element? : Option (Tree Element)} →
    {tally : Tally} → readTree parentBox inFlow ancestors tree = .ok (element?, tally) →
    AreReadings parentBox inFlow (keptTree? ancestors tree).toList element?.toList
  | .node node children, parentBox, inFlow, ancestors, element?, tally, h => by
    unfold keptTree?
    rcases readTree_eq_ok h with ⟨key, hkey, rfl, _⟩ | ⟨hkey, hread, rfl, _⟩ |
      ⟨hkey, element, warnings, below, _, hread, hbelow, rfl, _⟩
    · rw [hkey]
      exact trivial
    · rw [hkey, readElement?_eq_none hread]
      exact trivial
    · rw [hkey, (readElement?_eq_some hread).kind]
      exact ⟨⟨⟨warnings, hread⟩, readForest_areReadings children hbelow⟩, trivial⟩

theorem readForest_areReadings : (trees : List (Tree Attributes)) →
    {parentBox : Option Attributes} → {inFlow : Bool} → {ancestors : List String} →
    {elements : List (Tree Element)} → {tally : Tally} →
    readForest parentBox inFlow ancestors trees = .ok (elements, tally) →
    AreReadings parentBox inFlow (keptForest ancestors trees) elements
  | [], _, _, _, _, _, h => by
    obtain ⟨rfl, _⟩ := Prod.mk.inj (pure_eq_ok.mp h)
    exact trivial
  | tree :: rest, parentBox, inFlow, ancestors, elements, tally, h => by
    unfold keptForest
    rcases readForest_cons_eq_ok h with
      ⟨hpassed, hrest⟩ | ⟨hpainted, _, _, _, _, hhere, hrest, rfl, _⟩
    · rw [if_pos hpassed]
      exact readForest_areReadings rest hrest
    · rw [if_neg (Bool.eq_false_iff.mp hpainted)]
      exact (readTree_areReadings tree hhere).append (readForest_areReadings rest hrest)

end

theorem readPage_areReadings {page : Tree Attributes} {elements : List (Tree Element)}
    {tally : Tally} (h : readPage page = .ok (elements, tally)) :
    AreReadings none false (keptOnPage page) elements := by
  unfold keptOnPage
  rcases readPage_eq_ok h with ⟨hpassed, rfl, _⟩ | ⟨hpainted, hforest⟩
  · rw [if_pos hpassed]
    exact trivial
  · rw [if_neg (Bool.eq_false_iff.mp hpainted)]
    exact readForest_areReadings page.children hforest

theorem readPages_areReadings {pages : List (Tree Attributes)} {scene : Scene} {tally : Tally}
    (h : readPages pages = .ok (scene, tally)) :
    AreReadings none false (pages.flatMap keptOnPage) scene := by
  induction pages generalizing scene tally with
  | nil =>
      obtain ⟨rfl, _⟩ := Prod.mk.inj (pure_eq_ok.mp h)
      exact trivial
  | cons page rest ih =>
      obtain ⟨_, _, _, _, hhere, hrest, rfl, _⟩ := readPages_cons_eq_ok h
      rw [List.flatMap_cons]
      exact (readPage_areReadings hhere).append (ih hrest)

/-- The scene of a document is read node by node from the kept nodes. -/
theorem readDocument_areReadings {file : Json} {document : Document}
    (h : readDocument file = .ok document) :
    AreReadings none false (keptNodes file) document.scene := by
  obtain ⟨pages, hpages, hscene⟩ := readDocument_eq_ok h
  unfold keptNodes
  rw [hpages]
  exact readPages_areReadings hscene

end DesignToWeb.Design
