import DesignToWeb.Conversion
import DesignToWeb.Manifest
import DesignToWeb.Proofs.Design.Walk

/-!
# Counts of a document

Elements are counted three times: while a document is read, when a manifest
counts their strategies, and by the list of the manifest itself.  The counts
agree, and what was read without coming to an element is counted too.
-/

namespace DesignToWeb

open Outcome

/-! ## Counts of the walk -/

/-- The counts that elements amount to, with the number of nodes that came to none. -/
def Stats.ofElements (elements : List Element) (dropped : Nat) : Stats where
  nodesTotal := elements.length + dropped
  containers := elements.countP (·.kind = .container)
  texts := elements.countP (·.kind = .text)
  vectors := elements.countP (·.kind = .vector)
  images := elements.countP (·.kind = .image)
  gradients := elements.countP (·.style.fills.any Fill.isGradient)
  masks := elements.countP (·.style.isMask)

namespace Design

theorem visited_add_elementStats (element : Element) (elements : List Element) (dropped : Nat) :
    visited.stats + elementStats element + Stats.ofElements elements dropped =
      Stats.ofElements (element :: elements) dropped := by
  simp [visited, elementStats, Stats.ofElements, Stats.add_def, List.countP_cons,
    Style.hasGradient, Nat.add_comm]
  omega

/-- What is counted on the way is what the elements of the scene amount to. -/
theorem AllYield.stats {vs : List Visit} {elements : List Element} {tally : Tally}
    (h : AllYield vs elements tally) :
    tally.stats = Stats.ofElements elements (vs.countP (·.fate = .unrenderable)) := by
  induction h with
  | nil => rfl
  | @cons v element? own vs elements tally hv _ ih =>
      rw [Tally.stats_add, ih]
      cases hv with
      | passedOver hfate => simp [hfate]
      | repeated hfate => simp [hfate, Stats.add_def, Stats.ofElements]
      | unrenderable hfate =>
          simp [hfate, visited, Stats.add_def, Stats.ofElements, Nat.add_comm, Nat.add_left_comm]
      | kept hfate hread =>
          rw [Tally.stats_add, visited_add_elementStats]
          simp [hfate]

end Design

/-! ## Sums over kinds and strategies -/

theorem sum_kinds (elements : List Element) (dropped : Nat) :
    let stats := Stats.ofElements elements dropped
    stats.containers + stats.texts + stats.vectors + stats.images = elements.length := by
  induction elements with
  | nil => rfl
  | cons element elements ih =>
      simp only [Stats.ofElements, List.countP_cons, List.length_cons] at ih ⊢
      cases element.kind <;> simp <;> omega

theorem sum_strategies (strategies : List Strategy) :
    strategies.count .markup + strategies.count .text + strategies.count .imageFallback =
      strategies.length := by
  induction strategies with
  | nil => rfl
  | cons strategy strategies ih =>
      simp only [List.count_cons, List.length_cons]
      cases strategy <;> simp <;> omega

/-! ## Counts of a conversion -/

theorem classifyDocument_eq_ok {file : Json} {read : Design.Document} (policy : Policy)
    (h : Design.readDocument file = .ok read) :
    classifyDocument policy file = .ok ⟨Scene.classify policy read.scene, read.tally⟩ := by
  rw [classifyDocument, h]
  rfl

theorem map_element_classify (policy : Policy) (scene : Scene) :
    (Scene.classify policy scene).elements.map Classified.element = Tree.preorderForest scene := by
  rw [ClassifiedScene.elements, Scene.classify, Tree.preorderForest_mapForest, List.map_map]
  exact List.map_id _

/-- The counts of the walk, of the manifest and of the list in it agree: they all count the elements
of the scene, and beyond them the walk counts only the visits to nodes that cannot be rendered. -/
theorem counts_agree {file : Json} {read : Design.Document}
    (h : Design.readDocument file = .ok read) (policy : Policy) (fileKey : String)
    (about : Attributes) :
    ∃ document, classifyDocument policy file = .ok document ∧
      let elements := Tree.preorderForest read.scene
      let stats := document.tally.stats
      let counts := Manifest.countStrategies document.scene
      let manifest := (Manifest.build fileKey about document.scene document.tally).attributes
      let unrenderable := (Design.visits file).countP (·.fate = .unrenderable)
      stats = Stats.ofElements elements unrenderable ∧
        stats.containers + stats.texts + stats.vectors + stats.images = elements.length ∧
        counts.total = elements.length ∧
        counts.markup + counts.text + counts.imageFallback = elements.length ∧
        stats.nodesTotal = counts.total + unrenderable ∧
        (manifest.get "nodes").items.length = elements.length ∧
        manifest.get "counts" = Manifest.countsJson counts ∧
        manifest.get "stats" = Manifest.statsJson stats := by
  refine ⟨_, classifyDocument_eq_ok policy h, ?_⟩
  intro elements stats counts manifest unrenderable
  have hstats : stats = Stats.ofElements elements unrenderable :=
    (Design.readDocument_yields h).stats
  have hlength : (Scene.classify policy read.scene).elements.length = elements.length := by
    rw [← List.length_map Classified.element, map_element_classify]
  -- the manifest lists the elements, so its counts are the length of that one list
  have htotal : counts.total = elements.length := by
    rw [← hlength]
    exact List.length_map _
  have hstrategies : counts.markup + counts.text + counts.imageFallback = elements.length := by
    rw [← htotal]
    exact sum_strategies _
  have hkinds : stats.containers + stats.texts + stats.vectors + stats.images =
      elements.length := by
    rw [hstats]
    exact sum_kinds elements unrenderable
  have hvisited : stats.nodesTotal = counts.total + unrenderable := by
    rw [htotal, hstats]
    rfl
  have hnodes : (manifest.get "nodes").items.length = elements.length := by
    rw [← hlength]
    exact List.length_map _
  exact ⟨hstats, hkinds, htotal, hstrategies, hvisited, hnodes, rfl, rfl⟩

/-- A card with a gradient and a masked picture; a film with a label and a hidden line stand beside
the picture. -/
def cardWithFilm : Json :=
  .obj [("children", .arr [.obj [("id", .str "0:1"), ("children", .arr [
    .obj [("id", .str "1:1"), ("type", .str "FRAME"),
      ("fills", .arr [.obj [("type", .str "GRADIENT_RADIAL")]]),
      ("children", .arr [
        .obj [("id", .str "1:2"), ("type", .str "RECTANGLE"), ("isMask", .bool true),
          ("fills", .arr [.obj [("type", .str "IMAGE"), ("imageRef", .str "a")]])],
        .obj [("id", .str "1:3"), ("type", .str "FILM"), ("children", .arr [
          .obj [("id", .str "1:4"), ("type", .str "TEXT")]])],
        .obj [("id", .str "1:5"), ("type", .str "LINE"), ("visible", .bool false)]])]])]])]

/-- The film is visited and comes to nothing, and the line is not even counted. -/
theorem counts_agree_card : ∃ read document,
    Design.readDocument cardWithFilm = .ok read ∧
      classifyDocument {} cardWithFilm = .ok document ∧
      document.tally.stats = Stats.ofElements (Tree.preorderForest read.scene) 1 ∧
      (Manifest.countStrategies document.scene).total = 2 ∧
      document.tally.stats.nodesTotal = 3 := by
  have hvisits : (Design.visits cardWithFilm).countP (·.fate = .unrenderable) = 1 := by
    decide +kernel
  have hlength : ((Design.readDocument cardWithFilm).toOption.map
      fun read ↦ (Tree.preorderForest read.scene).length) = some 2 := by decide +kernel
  cases hread : Design.readDocument cardWithFilm with
  | error fault =>
      rw [hread] at hlength
      exact nomatch hlength
  | ok read =>
      rw [hread] at hlength
      have hlength : (Tree.preorderForest read.scene).length = 2 := Option.some.inj hlength
      obtain ⟨document, hdocument, hstats, _, htotal, _, hvisited, _⟩ :=
        counts_agree hread {} "KEY" .empty
      rw [hvisits] at hstats hvisited
      rw [hlength] at htotal
      rw [htotal] at hvisited
      exact ⟨read, document, rfl, hdocument, hstats, htotal, hvisited⟩

end DesignToWeb
