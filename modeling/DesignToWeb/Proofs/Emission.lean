import DesignToWeb.Proofs.Conversion
import DesignToWeb.Proofs.Css.Overflow
import DesignToWeb.Proofs.Design.Finiteness

/-!
# When a document can be emitted

Every number that is read from one field is finite.  What is computed from two, the
place of a box relative to another, letter spacing in per cent and a position times
a hundred, may leave the range of numbers, and that is the one thing an emission
fails for.
-/

namespace DesignToWeb

open Outcome

theorem isMeasured_of_mem {policy : Policy} {file : Json} {document : ClassifiedDocument}
    (h : classifyDocument policy file = .ok document) {c : Classified}
    (hc : c ∈ document.scene.elements) : c.element.IsMeasured := by
  obtain ⟨node, parentBox, inFlow, warnings, hread⟩ := exists_readElement_of_mem h hc
  exact Design.readElement?_isMeasured hread

theorem returnsIf_emit {policy : Policy} {file : Json} {document : ClassifiedDocument}
    (h : classifyDocument policy file = .ok document) (title : String)
    (assets : Css.ImageAssets) :
    ReturnsIf (∀ c ∈ document.scene.elements, AllFinite c.computed) (emit title assets document) :=
  (Css.returnsIf_stylesheet assets fun _ ↦ isMeasured_of_mem h).andThen fun _ ↦ .pure _

/-- A document that is accepted has finite numbers wherever they were read from one field.  It is
emitted exactly if what its declarations are computed from is finite, and fails for an infinite
number if not. -/
theorem emit_cases {policy : Policy} {file : Json} {document : ClassifiedDocument}
    (h : classifyDocument policy file = .ok document) (title : String)
    (assets : Css.ImageAssets) :
    (∀ c ∈ document.scene.elements, c.element.IsMeasured) ∧
      ((∀ c ∈ document.scene.elements, AllFinite c.computed) →
        ∃ emission, emit title assets document = .ok emission) ∧
      ((∃ c ∈ document.scene.elements, ∃ x ∈ c.computed, x.isFinite = false) →
        emit title assets document = .error .infinityToInteger) := by
  have hemit := returnsIf_emit h title assets
  refine ⟨fun _ ↦ isMeasured_of_mem h, hemit.returns, ?_⟩
  rintro ⟨c, hc, x, hx, hinfinite⟩
  refine hemit.overflows fun hfinite ↦ ?_
  rw [hfinite c hc x hx] at hinfinite
  exact Bool.noConfusion hinfinite

/-- A page whose only frame lies as far to the left of the origin as the rectangle in it lies to the
right. -/
def farApart : Json :=
  .obj [("children", .arr [.obj [("id", .str "0:1"), ("type", .str "CANVAS"), ("children", .arr [
    .obj [("id", .str "1:1"), ("name", .str "Far left"), ("type", .str "FRAME"),
      ("absoluteBoundingBox", .obj [("x", .int (-tenTo 308)), ("y", .int 0), ("width", .int 100),
        ("height", .int 100)]),
      ("children", .arr [
        .obj [("id", .str "1:2"), ("name", .str "Far right"), ("type", .str "RECTANGLE"),
          ("absoluteBoundingBox", .obj [("x", .int (tenTo 308)), ("y", .int 0),
            ("width", .int 10), ("height", .int 10)])]])]])]])]

/-- The place of the rectangle relative to the frame is no finite number. -/
theorem classifyDocument_farApart : ∃ document, classifyDocument {} farApart = .ok document ∧
    ∃ c ∈ document.scene.elements, ∃ x ∈ c.computed, x.isFinite = false := by
  have hcheck : ((classifyDocument {} farApart).toOption.any fun document ↦
      document.scene.elements.any fun c ↦ c.computed.any (!·.isFinite)) = true := by
    decide +kernel
  cases hdocument : classifyDocument {} farApart with
  | error fault =>
      rw [hdocument] at hcheck
      exact Bool.noConfusion hcheck
  | ok document =>
      rw [hdocument] at hcheck
      obtain ⟨c, hc, hany⟩ := List.any_eq_true.mp hcheck
      obtain ⟨x, hx, hinfinite⟩ := List.any_eq_true.mp hany
      exact ⟨document, rfl, c, hc, x, hx, by simpa using hinfinite⟩

theorem emit_cases_farApart : ∃ document, classifyDocument {} farApart = .ok document ∧
    (∃ c ∈ document.scene.elements, ∃ x ∈ c.computed, x.isFinite = false) ∧
    emit "Far apart" [] document = .error .infinityToInteger := by
  obtain ⟨document, hdocument, hinfinite⟩ := classifyDocument_farApart
  exact ⟨document, hdocument, hinfinite, (emit_cases hdocument "Far apart" []).2.2 hinfinite⟩

/-- Not every document that is accepted can be emitted. -/
theorem not_emit_ok : ¬ ∀ (policy : Policy) (file : Json) (title : String)
    (document : ClassifiedDocument), classifyDocument policy file = .ok document →
      ∃ emission, emit title [] document = .ok emission := by
  intro h
  obtain ⟨document, hdocument, c, hc, x, hx, hinfinite⟩ := classifyDocument_farApart
  obtain ⟨emission, hemission⟩ := h {} farApart "Far apart" document hdocument
  have hfails := (returnsIf_emit hdocument "Far apart" []).overflows fun hfinite ↦ by
    rw [hfinite c hc x hx] at hinfinite
    exact Bool.noConfusion hinfinite
  rw [hemission] at hfails
  cases hfails

end DesignToWeb
