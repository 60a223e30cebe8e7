import DesignToWeb.Conversion
import DesignToWeb.Proofs.Design.Placement

/-!
# Conversions step by step

The elements of a classified document come from its nodes, and an emission has
written each of them.
-/

namespace DesignToWeb

open Outcome

theorem exists_readElement_of_mem {policy : Policy} {file : Json} {document : ClassifiedDocument}
    (h : classifyDocument policy file = .ok document) {c : Classified}
    (hc : c ∈ document.scene.elements) :
    ∃ node parentBox inFlow warnings,
      Design.readElement? node parentBox inFlow = .ok (some (c.element, warnings)) := by
  obtain ⟨read, hread, h⟩ := bind_eq_ok.mp h
  rw [← pure_eq_ok.mp h, ClassifiedScene.elements, Scene.classify,
    Tree.preorderForest_mapForest] at hc
  obtain ⟨element, helement, rfl⟩ := List.mem_map.mp hc
  have hreadings := Design.readDocument_areReadings hread
  exact Design.AreReadings.exists_readElement _ _ hreadings element helement

theorem exists_elementRules_of_emit {title : String} {assets : Css.ImageAssets}
    {document : ClassifiedDocument} {emission : Emission}
    (h : emit title assets document = .ok emission) {c : Classified}
    (hc : c ∈ document.scene.elements) :
    ∃ rules, Css.elementRules c (assets.lookup c.id) = .ok rules := by
  obtain ⟨css, hcss, _⟩ := bind_eq_ok.mp h
  obtain ⟨blocks, hblocks, _⟩ := bind_eq_ok.mp hcss
  obtain ⟨lists, hlists, _⟩ := bind_eq_ok.mp hblocks
  obtain ⟨own, _, hown⟩ := exists_of_mem_left hlists hc
  obtain ⟨rules, hrules, _⟩ := bind_eq_ok.mp hown
  exact ⟨rules, hrules⟩

/-- The flows of a design run along a row or a column. -/
theorem direction_of_mem {policy : Policy} {file : Json} {document : ClassifiedDocument}
    (h : classifyDocument policy file = .ok document) {c : Classified}
    (hc : c ∈ document.scene.elements) {box : FlowBox} (hbox : c.element.layout = .flow box) :
    box.direction = .row ∨ box.direction = .column := by
  obtain ⟨node, parentBox, inFlow, warnings, hread⟩ := exists_readElement_of_mem h hc
  have hlayout := Design.isLayoutOf_of_readLayout (Design.readElement?_eq_some hread).layout
  rw [hbox] at hlayout
  exact Design.flowDirection_cases hlayout

theorem emit_eq_ok {title : String} {assets : Css.ImageAssets} {document : ClassifiedDocument}
    {emission : Emission} (h : emit title assets document = .ok emission) :
    emission.html = Html.page title document.scene ∧
      Css.stylesheet assets document.scene = .ok emission.css := by
  obtain ⟨css, hcss, h⟩ := bind_eq_ok.mp h
  rw [← pure_eq_ok.mp h]
  exact ⟨rfl, hcss⟩

/-- A document that is converted to the end, and passes a test when it is classified. -/
theorem exists_emission {policy : Policy} {file : Json} {title : String}
    {assets : Css.ImageAssets} {p : ClassifiedDocument → Bool}
    (h : (match classifyDocument policy file with
      | .ok document => (emit title assets document).toOption.isSome && p document
      | .error _ => false) = true) :
    ∃ document emission, classifyDocument policy file = .ok document ∧
      emit title assets document = .ok emission ∧ p document = true := by
  cases hdocument : classifyDocument policy file with
  | error fault =>
      rw [hdocument] at h
      exact Bool.noConfusion h
  | ok document =>
      simp only [hdocument, Bool.and_eq_true] at h
      cases hemission : emit title assets document with
      | error fault =>
          rw [hemission] at h
          exact Bool.noConfusion h.1
      | ok emission => exact ⟨document, emission, rfl, hemission, h.2⟩

/-- A document that is converted to the end, with an element in its scene that passes a test. -/
theorem exists_element_of_conversion {policy : Policy} {file : Json} {title : String}
    {assets : Css.ImageAssets} {p : Classified → Bool}
    (h : (match classifyDocument policy file with
      | .ok document =>
        (emit title assets document).toOption.isSome && document.scene.elements.any p
      | .error _ => false) = true) :
    ∃ document emission, classifyDocument policy file = .ok document ∧
      emit title assets document = .ok emission ∧
      ∃ c ∈ document.scene.elements, p c = true := by
  obtain ⟨document, emission, hdocument, hemission, hany⟩ := exists_emission h
  exact ⟨document, emission, hdocument, hemission, List.any_eq_true.mp hany⟩

end DesignToWeb
