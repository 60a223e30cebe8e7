import Mathlib.Algebra.Group.Basic
import DesignToWeb.Proofs.Design.Addresses
import DesignToWeb.Proofs.Design.Membership

/-!
# Hiding one node

Hiding a node of a document takes away what its own visit and the visits below
it came to, and touches nothing else, neither the other elements nor the order
of the warnings.  A reading is taken apart around the node into what comes
before it, what it comes to itself and what comes after it; the excision grows
from the node outwards, by its siblings at every level and by the nodes above.
-/

namespace DesignToWeb.Design

open Outcome

/-! ## Reading around a gap -/

/-- Elements and a tally, and others after them. -/
def joined (r₁ r₂ : List (Tree Element) × Tally) : List (Tree Element) × Tally :=
  (r₁.1 ++ r₂.1, r₁.2 + r₂.2)

theorem joined_nil (r : List (Tree Element) × Tally) : joined ([], {}) r = r :=
  Prod.ext rfl (zero_add r.2)

theorem nil_joined (r : List (Tree Element) × Tally) : joined r ([], {}) = r :=
  Prod.ext (List.append_nil r.1) (add_zero r.2)

def ReadsInTurn (read : List Json → Except Fault (List (Tree Element) × Tally)) : Prop :=
  ∀ items others, read (items ++ others) = do return joined (← read items) (← read others)

theorem ReadsInTurn.around_eq_ok {read : List Json → Except Fault (List (Tree Element) × Tally)}
    (hread : ReadsInTurn read) {before after : List Json} {item : Json}
    {r : List (Tree Element) × Tally} :
    read (before ++ item :: after) = .ok r ↔
      ∃ left middle right, read before = .ok left ∧ read [item] = .ok middle ∧
        read after = .ok right ∧ r = joined left (joined middle right) := by
  rw [← List.singleton_append, hread, hread]
  simp only [bind_eq_ok, pure_eq_ok]
  constructor
  · rintro ⟨left, hleft, _, ⟨middle, hmiddle, right, hright, rfl⟩, rfl⟩
    exact ⟨left, middle, right, hleft, hmiddle, hright, rfl⟩
  · rintro ⟨left, middle, right, hleft, hmiddle, hright, rfl⟩
    exact ⟨left, hleft, _, ⟨middle, hmiddle, right, hright, rfl⟩, rfl⟩

theorem readForest_append (box? : Option Attributes) (inFlow : Bool) (keys : List String)
    (trees others : List (Tree Attributes)) :
    readForest box? inFlow keys (trees ++ others) = do
      return joined (← readForest box? inFlow keys trees)
        (← readForest box? inFlow keys others) := by
  induction trees with
  | nil =>
      rw [List.nil_append, readForest, pure_bind]
      simp only [joined_nil, bind_pure]
  | cons tree rest ih =>
      rw [List.cons_append, readForest, readForest, ih]
      cases isSkipped tree.value with
      | error fault => rfl
      | ok skipped =>
          have hok : (Except.ok skipped : Except Fault Bool) = pure skipped := rfl
          rw [hok, pure_bind, pure_bind]
          cases skipped with
          | true => rfl
          | false =>
              simp only [Bool.false_eq_true, if_false, bind_assoc, pure_bind, joined,
                List.append_assoc, add_assoc]

theorem readPages_append (pages others : List (Tree Attributes)) :
    readPages (pages ++ others) = do
      return joined (← readPages pages) (← readPages others) := by
  induction pages with
  | nil =>
      rw [List.nil_append, readPages, pure_bind]
      simp only [joined_nil, bind_pure]
  | cons page rest ih =>
      rw [List.cons_append, readPages, readPages, ih]
      simp only [bind_assoc, pure_bind, joined, List.append_assoc, add_assoc]

theorem readStroke_withChildren (items : List Json) (node : Attributes) :
    readStroke (withChildren items node) = readStroke node := by
  funext paint
  simp (disch := decide) only [readStroke, strokeWeight, strokeDashes, readStrokeAlign,
    withChildren, Attributes.get_set_of_ne]

/-- What a node itself is read into does not depend on its children. -/
theorem readElement?_withChildren (items : List Json) (node : Attributes)
    (box? : Option Attributes) (inFlow : Bool) :
    readElement? (withChildren items node) box? inFlow = readElement? node box? inFlow := by
  unfold readElement? readStyle readStrokes
  rw [readStroke_withChildren]
  simp (disch := decide) only [kind?, readCornerRadius, readText, readRuns, characters,
    readLayout, readFlowBox, readPadding, boundingBox?, flowDirection?, withChildren,
    Attributes.get_set_of_ne]

theorem isSkipped_withChildren (items : List Json) (node : Attributes) :
    isSkipped (withChildren items node) = isSkipped node := by
  unfold isSkipped isVisible withChildren
  rw [Attributes.get_set_of_ne (by decide), Attributes.get_set_of_ne (by decide)]

theorem nodeKey?_withChildren (items : List Json) (node : Attributes) :
    nodeKey? (withChildren items node) = nodeKey? node := by
  unfold nodeKey? withChildren
  rw [Attributes.get_set_of_ne (by decide)]

theorem boundingBox?_withChildren (items : List Json) (node : Attributes) :
    boundingBox? (withChildren items node) = boundingBox? node := by
  unfold boundingBox? withChildren
  rw [Attributes.get_set_of_ne (by decide)]

theorem flowDirection?_withChildren (items : List Json) (node : Attributes) :
    flowDirection? (withChildren items node) = flowDirection? node := by
  unfold flowDirection? withChildren
  rw [Attributes.get_set_of_ne (by decide)]

theorem isSkipped_hidden (node : Attributes) : isSkipped (hidden node) = .ok true := by
  unfold isSkipped isVisible hidden
  rw [Attributes.get_set_self]
  rfl

/-! ## Reading values at a place -/

/-- What values at a place are read into. -/
def readItems (s : Surroundings) (items : List Json) : Except Fault (List (Tree Element) × Tally) :=
  readForest s.box? s.inFlow s.keys (objectTrees items)

/-- What the node of a visit is read into with all that is below it. -/
def Visit.reading (v : Visit) : Except Fault (List (Tree Element) × Tally) :=
  readItems v.surroundings [.obj v.node.fields]

theorem readItems_inTurn (s : Surroundings) : ReadsInTurn (readItems s) := by
  intro items others
  unfold readItems
  rw [objectTrees_append, readForest_append]

theorem readItems_node (s : Surroundings) (node : Attributes) :
    readItems s [.obj node.fields] = do
      if ← isSkipped node then return ([], {})
      let (element?, tally) ← readTree s.box? s.inFlow s.keys (nodeTree node)
      return (element?.toList, tally) := by
  have hzero (tally : Tally) : tally + {} = tally := add_zero tally
  rw [readItems, objectTrees_node, readForest, readForest]
  simp only [pure_bind, List.append_nil, hzero]
  rfl

theorem readItems_hidden (s : Surroundings) (node : Attributes) :
    readItems s [.obj (hidden node).fields] = .ok ([], {}) := by
  rw [readItems_node, isSkipped_hidden]
  rfl

theorem readElement?_of_kept {s : Surroundings} {node : Attributes} (hkept : IsKept s node)
    {r : List (Tree Element) × Tally} (h : readItems s [.obj node.fields] = .ok r) :
    isSkipped node = .ok false ∧
      ∃ element warnings, readElement? node s.box? s.inFlow = .ok (some (element, warnings)) := by
  obtain ⟨hpainted, hkey, hkind⟩ := isKept_iff.mp hkept
  rw [readItems_node] at h
  obtain ⟨skipped, hskipped, h⟩ := bind_eq_ok.mp h
  obtain rfl : skipped = false := (isSkipped_eq_ok hskipped).trans hpainted
  obtain ⟨_, htree, _⟩ := bind_eq_ok.mp h
  rcases readTree_eq_ok htree with ⟨_, hrepeated, _⟩ | ⟨_, hread, _⟩ |
    ⟨_, element, warnings, _, _, hread, _⟩
  · rw [hkey] at hrepeated
    exact nomatch hrepeated
  · rw [readElement?_eq_none hread] at hkind
    exact Bool.noConfusion hkind
  · exact ⟨hskipped, element, warnings, hread⟩

/-- A kept node comes to an element and a tally of its own whatever its children are. -/
theorem exists_readItems_kept {s : Surroundings} {node : Attributes} (hkept : IsKept s node)
    {r : List (Tree Element) × Tally} (h : readItems s [.obj node.fields] = .ok r) :
    ∃ element own, ∀ items, readItems s [.obj (withChildren items node).fields] = do
      let (below, tally) ← readItems (s.below node) items
      return ([.node element below], own + tally) := by
  obtain ⟨hskipped, element, warnings, hread⟩ := readElement?_of_kept hkept h
  refine ⟨element, visited + { warnings, stats := elementStats element }, fun items ↦ ?_⟩
  have hkey : repeatedKey? s.keys (withChildren items node) = none := by
    rw [repeatedKey?, nodeKey?_withChildren]
    exact (isKept_iff.mp hkept).2.1
  rw [readItems_node, isSkipped_withChildren, hskipped, nodeTree, childItems_withChildren,
    readTree, readItems, Surroundings.box?_below, Surroundings.inFlow_below,
    Surroundings.keys_below]
  simp only [hkey, readElement?_withChildren, hread, boundingBox?_withChildren,
    flowDirection?_withChildren, nodeKey?_withChildren]
  cases readForest (boundingBox? node) (flowDirection? node).isSome
    ((nodeKey? node).toList ++ s.keys) (objectTrees items) <;> rfl

/-! ## Excisions -/

/-- A reading taken apart around what one node in it comes to. -/
structure Excision where
  context : Tree.Context Element
  before : Tally
  trees : List (Tree Element)
  own : Tally
  after : Tally

namespace Excision

def whole (e : Excision) : List (Tree Element) × Tally :=
  (e.context.plug e.trees, e.before + e.own + e.after)

def without (e : Excision) : List (Tree Element) × Tally :=
  (e.context.plug [], e.before + e.after)

def upTo (e : Excision) : List (Tree Element) × Tally := (e.context.upTo, e.before)

/-- The excision of all of a reading. -/
def ofAll (r : List (Tree Element) × Tally) : Excision := ⟨.gap, 0, r.1, r.2, 0⟩

def beside (left right : List (Tree Element) × Tally) (e : Excision) : Excision :=
  { e with
    context := .beside left.1 e.context right.1
    before := left.2 + e.before
    after := e.after + right.2 }

def under (element : Element) (own : Tally) (e : Excision) : Excision :=
  { e with context := .under element e.context, before := own + e.before }

theorem whole_ofAll (r : List (Tree Element) × Tally) : (ofAll r).whole = r := by
  unfold whole ofAll
  rw [zero_add, add_zero]
  rfl

theorem without_ofAll (r : List (Tree Element) × Tally) : (ofAll r).without = ([], {}) := by
  unfold without ofAll
  rw [zero_add]
  rfl

theorem upTo_ofAll (r : List (Tree Element) × Tally) : (ofAll r).upTo = ([], {}) := rfl

theorem whole_beside (left right : List (Tree Element) × Tally) (e : Excision) :
    (e.beside left right).whole = joined left (joined e.whole right) := by
  simp only [whole, beside, joined, Tree.Context.plug, List.append_assoc, add_assoc]

theorem without_beside (left right : List (Tree Element) × Tally) (e : Excision) :
    (e.beside left right).without = joined left (joined e.without right) := by
  simp only [without, beside, joined, Tree.Context.plug, List.append_assoc, add_assoc]

theorem upTo_beside (left right : List (Tree Element) × Tally) (e : Excision) :
    (e.beside left right).upTo = joined left e.upTo := rfl

theorem whole_under (element : Element) (own : Tally) (e : Excision) :
    (e.under element own).whole = ([.node element e.whole.1], own + e.whole.2) := by
  simp only [whole, under, Tree.Context.plug, add_assoc]

theorem without_under (element : Element) (own : Tally) (e : Excision) :
    (e.under element own).without = ([.node element e.without.1], own + e.without.2) := by
  simp only [without, under, Tree.Context.plug, add_assoc]

theorem upTo_under (element : Element) (own : Tally) (e : Excision) :
    (e.under element own).upTo = ([.node element e.upTo.1], own + e.upTo.2) := rfl

end Excision

/-! ## Hiding along an address -/

theorem modify_around {α : Type} (f : α → α) (before after : List α) (item : α) :
    (before ++ item :: after).modify before.length f = before ++ f item :: after := by
  induction before with
  | nil => rfl
  | cons first rest ih => exact congrArg (first :: ·) ih

theorem hideAlong_end (before after : List Json) (node : Attributes) :
    hideAlong [before.length] (before ++ .obj node.fields :: after) =
      before ++ .obj (hidden node).fields :: after :=
  modify_around _ _ _ _

theorem hideAlong_below {address : List Nat} (haddress : address ≠ []) (before after : List Json)
    (node : Attributes) :
    hideAlong (before.length :: address) (before ++ .obj node.fields :: after) =
      before ++ .obj (mapChildItems (hideAlong address) node).fields :: after := by
  cases address with
  | nil => exact absurd rfl haddress
  | cons i address => exact modify_around _ _ _ _

theorem cutAlong_end (before after : List Json) (item : Json) :
    cutAlong [before.length] (before ++ item :: after) = before :=
  List.take_left

theorem cutAlong_below {address : List Nat} (haddress : address ≠ []) (before after : List Json)
    (node : Attributes) :
    cutAlong (before.length :: address) (before ++ .obj node.fields :: after) =
      before ++ [.obj (mapChildItems (cutAlong address) node).fields] := by
  cases address with
  | nil => exact absurd rfl haddress
  | cons i address =>
      have htake : (before ++ Json.obj node.fields :: after).take (before.length + 1) =
          before ++ [.obj node.fields] := List.take_length_add_append 1
      exact (congrArg (List.modify · _ _) htake).trans (modify_around _ _ _ _)

/-- Hiding one of the nodes below a place excises what that node comes to. -/
theorem readItems_hideAlong {address : List Nat} {s : Surroundings} {items : List Json}
    {nodes : List Attributes} {v : Visit} {r : List (Tree Element) × Tally}
    (h : readItems s items = .ok r) (hnodes : nodesAlong items address = some nodes)
    (hvisit : visitBelow? s nodes = some v) :
    ∃ e : Excision, e.whole = r ∧ readItems s (hideAlong address items) = .ok e.without ∧
      readItems s (cutAlong address items) = .ok e.upTo ∧ v.reading = .ok (e.trees, e.own) ∧
      e.context.depth + 1 = address.length := by
  -- on the address: the nodes above the hidden one are kept, and their own reading is as before
  induction address generalizing s items nodes r with
  | nil =>
      obtain rfl := Option.some.inj hnodes
      exact nomatch hvisit
  | cons i address ih =>
      obtain ⟨before, node, after, rest, rfl, rfl, hrest, rfl⟩ := nodesAlong_cons_eq_some hnodes
      obtain ⟨left, middle, right, hleft, hmiddle, hright, rfl⟩ :=
        (readItems_inTurn s).around_eq_ok.mp h
      by_cases haddress : address = []
      · -- the node itself: all that it comes to is excised
        subst haddress
        obtain rfl := Option.some.inj hrest
        obtain rfl := Option.some.inj hvisit
        refine ⟨(Excision.ofAll middle).beside left right, ?_, ?_, ?_, hmiddle, rfl⟩
        · rw [Excision.whole_beside, Excision.whole_ofAll]
        · rw [hideAlong_end, Excision.without_beside, Excision.without_ofAll]
          exact (readItems_inTurn s).around_eq_ok.mpr
            ⟨left, _, right, hleft, readItems_hidden s node, hright, rfl⟩
        · rw [cutAlong_end, Excision.upTo_beside, Excision.upTo_ofAll, nil_joined]
          exact hleft
      · -- a node above it: an excision below the node becomes one of the node
        obtain ⟨hchildren, hbelow⟩ := nodesAlong_ne_nil hrest haddress
        rw [visitBelow?_cons hbelow] at hvisit
        obtain ⟨hkept, hvisit⟩ := Option.ite_none_right_eq_some.mp hvisit
        obtain ⟨element, own, hread⟩ := exists_readItems_kept hkept hmiddle
        rw [← withChildren_childItems hchildren, hread] at hmiddle
        obtain ⟨below, hbelow, hmiddle⟩ := bind_eq_ok.mp hmiddle
        obtain rfl := pure_eq_ok.mp hmiddle
        obtain ⟨e, rfl, hhide, hcut, hown, hdepth⟩ := ih hbelow hrest hvisit
        refine ⟨(e.under element own).beside left right, ?_, ?_, ?_, hown, ?_⟩
        · rw [Excision.whole_beside, Excision.whole_under]
        · rw [hideAlong_below haddress, Excision.without_beside, Excision.without_under]
          refine (readItems_inTurn s).around_eq_ok.mpr ⟨left, _, right, hleft, ?_, hright, rfl⟩
          exact (hread _).trans (bind_eq_ok.mpr ⟨_, hhide, rfl⟩)
        · rw [cutAlong_below haddress, Excision.upTo_beside, Excision.upTo_under,
            readItems_inTurn, hleft, mapChildItems, hread, hcut]
          rfl
        · exact congrArg (· + 1) hdepth

/-! ## Hiding in a document -/

/-- What a list of pages is read into. -/
def readPageItems (pages : List Json) : Except Fault (List (Tree Element) × Tally) :=
  readPages (objectTrees pages)

theorem readPageItems_inTurn : ReadsInTurn readPageItems := by
  intro pages others
  unfold readPageItems
  rw [objectTrees_append, readPages_append]

theorem readPageItems_page (page : Attributes) :
    readPageItems [.obj page.fields] = readPage (nodeTree page) := by
  rw [readPageItems, objectTrees_node, readPages, readPages]
  cases readPage (nodeTree page) with
  | error fault => rfl
  | ok r => exact congrArg Except.ok (nil_joined r)

theorem readPageItems_withChildren {page : Attributes} (hskipped : isSkipped page = .ok false)
    (items : List Json) :
    readPageItems [.obj (withChildren items page).fields] = readItems ⟨page, []⟩ items := by
  rw [readPageItems_page, readPage, nodeTree, Tree.value, isSkipped_withChildren, hskipped,
    childItems_withChildren, nodeKey?_withChildren, withChildren, Attributes.get_set_self]
  rfl

/-- Hiding one of the nodes below the pages excises what that node comes to. -/
theorem readPageItems_hideAlong {address : List Nat} {pages : List Json}
    {nodes : List Attributes} {v : Visit} {r : List (Tree Element) × Tally}
    (h : readPageItems pages = .ok r) (hnodes : nodesAlong pages address = some nodes)
    (hvisit : visit? nodes = some v) :
    ∃ e : Excision, e.whole = r ∧ readPageItems (hideAlong address pages) = .ok e.without ∧
      readPageItems (cutAlong address pages) = .ok e.upTo ∧ v.reading = .ok (e.trees, e.own) ∧
      e.context.depth + 2 = address.length := by
  cases address with
  | nil =>
      obtain rfl := Option.some.inj hnodes
      exact nomatch hvisit
  | cons i address =>
      obtain ⟨before, page, after, rest, rfl, rfl, hrest, rfl⟩ := nodesAlong_cons_eq_some hnodes
      obtain ⟨left, middle, right, hleft, hmiddle, hright, rfl⟩ :=
        readPageItems_inTurn.around_eq_ok.mp h
      obtain ⟨hpainted, hvisit⟩ := Option.ite_none_left_eq_some.mp hvisit
      have haddress : address ≠ [] := by
        rintro rfl
        obtain rfl := Option.some.inj hrest
        exact nomatch hvisit
      -- the page was walked, so its type can be told
      have hskipped : isSkipped page = .ok false := by
        rw [readPageItems_page, readPage] at hmiddle
        obtain ⟨skipped, hskipped, _⟩ := bind_eq_ok.mp hmiddle
        obtain rfl := isSkipped_eq_ok hskipped
        exact hskipped.trans (congrArg Except.ok (Bool.eq_false_iff.mpr hpainted))
      have hread := readPageItems_withChildren hskipped
      rw [← withChildren_childItems (nodesAlong_ne_nil hrest haddress).1, hread] at hmiddle
      obtain ⟨e, rfl, hhide, hcut, hown, hdepth⟩ := readItems_hideAlong hmiddle hrest hvisit
      refine ⟨e.beside left right, ?_, ?_, ?_, hown, congrArg (· + 1) hdepth⟩
      · rw [Excision.whole_beside]
      · rw [hideAlong_below haddress, Excision.without_beside]
        exact readPageItems_inTurn.around_eq_ok.mpr
          ⟨left, _, right, hleft, (hread _).trans hhide, hright, rfl⟩
      · rw [cutAlong_below haddress, Excision.upTo_beside, readPageItems_inTurn, hleft,
          mapChildItems, hread, hcut]
        rfl

/-- Only a kept node comes to an element tree. -/
theorem Visit.length_of_reading {v : Visit} {trees : List (Tree Element)} {own : Tally}
    (h : v.reading = .ok (trees, own)) :
    trees.length = if v.fate = .kept then 1 else 0 := by
  obtain ⟨s, node⟩ := v
  have hreadings : AreReadings s.box? s.inFlow (keptForest s.keys [nodeTree node]) trees := by
    rw [Visit.reading, readItems, objectTrees_node] at h
    exact readForest_areReadings _ h
  rw [nodeTree, keptForest_cons] at hreadings
  rw [Visit.fate]
  simp only [fate_eq_kept]
  by_cases hkept : IsKept s node
  · rw [if_pos hkept] at hreadings ⊢
    cases trees with
    | nil => exact hreadings.elim
    | cons tree rest =>
        cases rest with
        | nil => rfl
        | cons next rest => exact hreadings.2.elim
  · rw [if_neg hkept] at hreadings ⊢
    cases trees with
    | nil => rfl
    | cons tree rest => exact hreadings.elim

theorem readDocument_mapPages {file pages : Json} (h : pages? file = .ok pages)
    {f : List Json → List Json} {r : List (Tree Element) × Tally}
    (hread : readPageItems (f pages.items) = .ok r) :
    readDocument (file.mapObject (mapPages f)) = .ok ⟨r.1, r.2⟩ := by
  rw [readDocument, pages?_mapPages h]
  exact bind_eq_ok.mpr ⟨_, rfl, bind_eq_ok.mpr ⟨r, hread, rfl⟩⟩

/-- Hiding a node that the walk over a document comes to takes out of the scene what the node is
read into, and nothing else.  The warnings lose one block, which is about the node and what is below
it, and the counts lose what they count there.  The gap in the scene and the block of warnings are
where the reading ends when the document is cut off before the node. -/
theorem readDocument_hideAt {file : Json} {document : Document} {address : List Nat} {v : Visit}
    (h : readDocument file = .ok document) (hvisit : visitAt? file address = some v) :
    ∃ (e : Excision) (document' upTo : Document),
      v.reading = .ok (e.trees, e.own) ∧ e.trees.length = (if v.fate = .kept then 1 else 0) ∧
      readDocument (hideAt address file) = .ok document' ∧
      readDocument (cutAt address file) = .ok upTo ∧
      document.scene = e.context.plug e.trees ∧ document'.scene = e.context.plug [] ∧
      upTo.scene = e.context.upTo ∧ e.context.depth + 2 = address.length ∧
      document.tally.stats = document'.tally.stats + e.own.stats ∧
      document.tally.warnings = upTo.tally.warnings ++ e.own.warnings ++ e.after.warnings ∧
      document'.tally.warnings = upTo.tally.warnings ++ e.after.warnings := by
  obtain ⟨pages, hpages, hscene⟩ := readDocument_eq_ok h
  rw [itemTrees_eq] at hscene
  unfold visitAt? at hvisit
  rw [hpages] at hvisit
  obtain ⟨nodes, hnodes, hvisit⟩ := Option.bind_eq_some_iff.mp hvisit
  obtain ⟨e, hwhole, hhide, hcut, hown, hdepth⟩ := readPageItems_hideAlong hscene hnodes hvisit
  obtain ⟨hscene, htally⟩ := Prod.mk.inj hwhole
  have hstats : document.tally.stats = e.without.2.stats + e.own.stats := by
    rw [← htally]
    exact add_right_comm e.before.stats e.own.stats e.after.stats
  exact ⟨e, ⟨e.without.1, e.without.2⟩, ⟨e.upTo.1, e.upTo.2⟩, hown, Visit.length_of_reading hown,
    readDocument_mapPages hpages hhide, readDocument_mapPages hpages hcut, hscene.symm, rfl, rfl,
    hdepth, hstats, congrArg Tally.warnings htally.symm, rfl⟩

/-- Without the first column of the card its warning is gone, and two nodes less are counted. -/
theorem readDocument_hideAt_card : ∃ document document' before after,
    readDocument cardInItself = .ok document ∧
    readDocument (hideAt [0, 0, 0] cardInItself) = .ok document' ∧
    document.tally.stats.nodesTotal = document'.tally.stats.nodesTotal + 2 ∧
    document.tally.warnings = before ++ ["Cycle detected at node 1:1; subtree skipped"] ++ after ∧
    document'.tally.warnings = before ++ after := by
  have hok : (readDocument cardInItself).toOption.isSome = true := by decide +kernel
  have hreading : (visitAt? cardInItself [0, 0, 0]).map (fun v ↦ v.reading.toOption.map fun r ↦
      (r.2.stats.nodesTotal, r.2.warnings)) =
        some (some (2, ["Cycle detected at node 1:1; subtree skipped"])) := by decide +kernel
  obtain ⟨v, hvisit, hreading⟩ := Option.map_eq_some_iff.mp hreading
  cases hdocument : readDocument cardInItself with
  | error fault =>
      rw [hdocument] at hok
      exact Bool.noConfusion hok
  | ok document =>
      obtain ⟨e, document', upTo, hown, _, hhide, _, _, _, _, _, hstats, hwarnings, hwarnings'⟩ :=
        readDocument_hideAt hdocument hvisit
      rw [hown] at hreading
      obtain ⟨htotal, hblock⟩ := Prod.mk.inj (Option.some.inj hreading)
      refine ⟨document, document', upTo.tally.warnings, e.after.warnings, rfl, hhide, ?_, ?_,
        hwarnings'⟩
      · rw [hstats, ← htotal]
        rfl
      · rw [hwarnings, ← hblock]

end DesignToWeb.Design
