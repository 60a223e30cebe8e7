import DesignToWeb.Proofs.Conversion
import DesignToWeb.Proofs.Counting
import DesignToWeb.Proofs.Design.Lengths

/-!
# Negative lengths in a stylesheet

Lengths reach a stylesheet with the sign that the design gives them.  Of a design
without negative lengths nothing is lost for that reason, and every negative
length in a stylesheet is one that a node of the design gives.
-/

namespace DesignToWeb

open Outcome

/-- A declaration has a negative length exactly if an element has one that is not rounded away, and
its node gives it. -/
theorem negative_lengths_iff {policy : Policy} {file : Json} {title : String}
    {assets : Css.ImageAssets} {document : ClassifiedDocument} {emission : Emission}
    (h : classifyDocument policy file = .ok document)
    (hemit : emit title assets document = .ok emission) :
    ∃ all, Css.blocks assets document.scene = .ok all ∧
      emission.css = "\n".intercalate (Css.rootRule :: all.map Css.Block.text) ∧
      ((∃ block ∈ all, ∃ d ∈ block.declarations, ∃ length ∈ d.lengths, isNegative length = true) ↔
        ∃ c ∈ document.scene.elements, ∃ x ∈ Css.lengthsOf c, Css.roundsBelowZero x = true) ∧
      ∀ c ∈ document.scene.elements, ∃ v ∈ Design.visits file, v.Reads c.element ∧
        ∀ x ∈ Css.lengthsOf c, Css.roundsBelowZero x = true →
          ∃ field ∈ Design.lengthFields v.node, field.toNumber = .ok x := by
  obtain ⟨all, hall, hcss⟩ := bind_eq_ok.mp (emit_eq_ok hemit).2
  refine ⟨all, hall, (pure_eq_ok.mp hcss).symm, ?_, fun c hc ↦ ?_⟩
  · have hsigns := Bool.eq_iff_iff.mp (Css.blocks_signs assets document.scene all hall)
    simpa only [Css.Block.losesRule, Css.Declaration.isDropped, List.any_flatMap,
      List.any_eq_true] using hsigns
  · obtain ⟨read, hread, h⟩ := bind_eq_ok.mp h
    obtain rfl := pure_eq_ok.mp h
    have helement := List.mem_map_of_mem (f := Classified.element) hc
    rw [map_element_classify] at helement
    obtain ⟨v, hv, hreads⟩ := Design.exists_visit_of_mem hread helement
    refine ⟨v, hv, hreads, fun x hx hbelow ↦ ?_⟩
    exact hreads.allGiven x hx (Binary64.lt_zero_of_roundPlaces hbelow)

/-- A row with gaps and a padding, and in it a framed card with a shadow and a label. -/
def shelf : Json :=
  .obj [("children", .arr [.obj [("id", .str "0:1"), ("children", .arr [
    .obj [("id", .str "1:1"), ("type", .str "FRAME"), ("layoutMode", .str "HORIZONTAL"),
      ("itemSpacing", .int 8), ("paddingTop", .int 4),
      ("children", .arr [
        .obj [("id", .str "1:2"), ("type", .str "RECTANGLE"), ("cornerRadius", .int 3),
          ("strokeWeight", .int 2), ("strokes", .arr [.obj [("type", .str "SOLID")]]),
          ("effects", .arr [.obj [("type", .str "DROP_SHADOW"), ("radius", .int 5)]])],
        .obj [("id", .str "1:3"), ("type", .str "TEXT"), ("characters", .str "Vases"),
          ("style", .obj [("lineHeightPx", .int 20)])]])]])]])]

/-- Nothing is lost of it. -/
theorem negative_lengths_shelf : ∃ document emission all,
    classifyDocument {} shelf = .ok document ∧ emit "Shelf" [] document = .ok emission ∧
      Css.blocks [] document.scene = .ok all ∧
      (document.scene.elements.map fun c ↦ (Css.lengthsOf c).length) = [6, 5, 4] ∧
      ¬ ∃ block ∈ all, ∃ d ∈ block.declarations, ∃ length ∈ d.lengths,
        isNegative length = true := by
  obtain ⟨document, emission, hdocument, hemit, hfacts⟩ : ∃ document emission,
      classifyDocument {} shelf = .ok document ∧ emit "Shelf" [] document = .ok emission ∧
      ((document.scene.elements.map fun c ↦ (Css.lengthsOf c).length) == [6, 5, 4] &&
        document.scene.elements.all fun c ↦
          (Css.lengthsOf c).all (!Css.roundsBelowZero ·)) = true :=
    exists_emission (by decide +kernel)
  obtain ⟨hlength, hnone⟩ := Bool.and_eq_true_iff.mp hfacts
  obtain ⟨all, hall, _, hiff, _⟩ := negative_lengths_iff hdocument hemit
  refine ⟨document, emission, all, hdocument, hemit, hall, eq_of_beq hlength, fun hnegative ↦ ?_⟩
  obtain ⟨c, hc, x, hx, hbelow⟩ := hiff.mp hnegative
  have hnot := List.all_eq_true.mp (List.all_eq_true.mp hnone c hc) x hx
  rw [hbelow] at hnot
  exact Bool.noConfusion hnot

/-- A row of cards that lie over each other. -/
def fan : Json :=
  .obj [("children", .arr [.obj [("id", .str "0:1"), ("children", .arr [
    .obj [("id", .str "1:1"), ("type", .str "FRAME"), ("layoutMode", .str "HORIZONTAL"),
      ("itemSpacing", .int (-8)), ("children", .arr [
        .obj [("id", .str "1:2"), ("type", .str "RECTANGLE")],
        .obj [("id", .str "1:3"), ("type", .str "RECTANGLE")]])]])]])]

/-- The overlap becomes a negative gap, which a browser drops. -/
theorem negative_lengths_fan : ∃ document emission all,
    classifyDocument {} fan = .ok document ∧ emit "Fan" [] document = .ok emission ∧
      Css.blocks [] document.scene = .ok all ∧
      ∃ block ∈ all, ⟨.gap, "-8px"⟩ ∈ block.declarations ∧
        ∃ length ∈ (⟨.gap, "-8px"⟩ : Css.Declaration).lengths, isNegative length = true := by
  obtain ⟨document, emission, hdocument, hemit, hfacts⟩ : ∃ document emission,
      classifyDocument {} fan = .ok document ∧ emit "Fan" [] document = .ok emission ∧
      ((Css.blocks [] document.scene).toOption.any fun all ↦
        all.any (·.declarations.contains ⟨.gap, "-8px"⟩)) = true :=
    exists_emission (by decide +kernel)
  obtain ⟨all, hall, hany⟩ := exists_ok_of_any hfacts
  obtain ⟨block, hblock, hgap⟩ := List.any_eq_true.mp hany
  exact ⟨document, emission, all, hdocument, hemit, hall, block, hblock,
    List.contains_iff_mem.mp hgap, "-8px", List.mem_singleton_self _, by decide⟩

end DesignToWeb
