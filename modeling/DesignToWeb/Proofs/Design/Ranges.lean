import DesignToWeb.Proofs.Design.Finiteness
import DesignToWeb.Proofs.Design.Runs
import DesignToWeb.Proofs.Design.Walk

/-!
# Ranges of a style

The opacity of a style lies between zero and one, and strokes, images and corners are
of the kinds that there are.  The channels of its colours are meant to lie between
zero and one too, but they are read as they are given: every colour is that of a
paint, and it is out of range exactly if a number of that paint is.
-/

namespace DesignToWeb

open Outcome

namespace Binary64

variable {x y : Binary64}

/-- Whether a number lies between zero and one. -/
def isUnit (x : Binary64) : Bool := x.isFinite && !x.lt 0 && !lt 1 x

theorem lt_asymm (h : lt x y = true) : lt y x = false := by
  obtain ⟨a, b, hx, hy, hab⟩ := exists_position_lt h
  rw [lt, hx, hy]
  exact decide_eq_false (Int.not_lt.mpr (Int.le_of_lt hab))

theorem isUnit_zero : isUnit 0 = true := by decide +kernel

theorem isUnit_one : isUnit 1 = true := by decide +kernel

theorem isUnit_clampUnit (x : Binary64) : x.clampUnit.isUnit = true := by
  have hfinite := (within_clampUnit x).isFinite
  unfold clampUnit at hfinite ⊢
  dsimp only at hfinite ⊢
  by_cases hlt : lt x 1 = true
  · rw [if_pos hlt] at hfinite ⊢
    split at hfinite
    · next hpos =>
        rw [if_pos hpos, isUnit, hfinite, lt_asymm hpos, lt_asymm hlt]
        rfl
    · next hneg =>
        rw [if_neg hneg]
        exact isUnit_zero
  · rw [if_neg hlt]
    split
    · exact isUnit_one
    · exact isUnit_zero

end Binary64

/-! ## Colours -/

/-- Whether the channels of a colour lie between zero and one. -/
def RGBA.InRange (color : RGBA) : Prop := ∀ x ∈ color.numbers, x.isUnit = true

instance (color : RGBA) : Decidable color.InRange :=
  inferInstanceAs (Decidable (∀ x ∈ color.numbers, x.isUnit = true))

def Fill.colors : Fill → List RGBA
  | solid color => [color]
  | linear stops _ | radial stops | conic stops _ => stops.map ColorStop.color
  | image _ => []

def StrokePaint.colors : StrokePaint → List RGBA
  | solid color => color.toList
  | gradient stops _ => stops.map ColorStop.color

def Effect.colors : Effect → List RGBA
  | shadow s => s.color.toList
  | blur _ _ => []

/-- The colours of a style and of the runs of its text. -/
def Element.colors (e : Element) : List RGBA :=
  e.style.fills.flatMap Fill.colors ++ e.style.strokes.flatMap (·.paint.colors) ++
    e.style.effects.flatMap Effect.colors ++ e.runs.flatMap (·.color.toList)

namespace Design

/-- The fields of the channels of a colour; the opacity of the paint, when that is a number, takes
the place of its alpha. -/
def channelFields (paint : Attributes) : List Json :=
  let color := (paint.get "color").attributes
  let opacity := paint.get "opacity"
  [color.get "r", color.get "g", color.get "b", if opacity.isNumber then opacity else color.get "a"]

/-- Whether the numbers that a paint gives for its colour lie between zero and one. -/
def GivesUnits (paint : Attributes) : Prop :=
  ∀ field ∈ channelFields paint, ∀ x, field.toNumber = .ok x → x.isUnit = true

theorem isUnit_iff_of_toNumberOr {j : Json} {fallback x : Binary64}
    (hfallback : fallback.isUnit = true) (h : j.toNumberOr fallback = .ok x) :
    x.isUnit = true ↔ ∀ y, j.toNumber = .ok y → y.isUnit = true := by
  rcases toNumberOr_cases h with ⟨rfl, hzero⟩ | hnumber
  · refine iff_of_true hfallback fun y hy ↦ ?_
    rw [← Except.ok.inj (hzero.symm.trans hy)]
    exact Binary64.isUnit_zero
  · constructor
    · intro hx y hy
      rwa [← Except.ok.inj (hnumber.symm.trans hy)]
    · exact fun hall ↦ hall x hnumber

/-- A colour is in range exactly if the numbers given for it are. -/
theorem inRange_iff_givesUnits {paint : Attributes} {color : RGBA}
    (h : readOwnColor paint = .ok color) : color.InRange ↔ GivesUnits paint := by
  obtain ⟨alpha, halpha, h⟩ := bind_eq_ok.mp h
  obtain ⟨red, hred, h⟩ := bind_eq_ok.mp h
  obtain ⟨green, hgreen, h⟩ := bind_eq_ok.mp h
  obtain ⟨blue, hblue, h⟩ := bind_eq_ok.mp h
  rw [← pure_eq_ok.mp h]
  have halpha := isUnit_iff_of_toNumberOr Binary64.isUnit_one halpha
  have hred := isUnit_iff_of_toNumberOr Binary64.isUnit_zero hred
  have hgreen := isUnit_iff_of_toNumberOr Binary64.isUnit_zero hgreen
  have hblue := isUnit_iff_of_toNumberOr Binary64.isUnit_zero hblue
  simp only [RGBA.InRange, RGBA.numbers, GivesUnits, channelFields, List.forall_mem_cons, hred,
    hgreen, hblue, halpha, List.not_mem_nil, false_implies, implies_true]

/-! ## Where colours come from -/

/-- Whether a colour is that of one of some paints. -/
def IsColorOf (paints : List Attributes) (color : RGBA) : Prop :=
  ∃ paint ∈ paints, readOwnColor paint = .ok color

/-- A paint and the stops of its gradient. -/
def withStops (paint : Attributes) : List Attributes :=
  paint :: (paint.get "gradientStops").objects

/-- Everything of a node that has a colour. -/
def colorSources (node : Attributes) : List Attributes :=
  (node.get "fills").objects.flatMap withStops ++ (node.get "strokes").objects.flatMap withStops ++
    (node.get "effects").objects ++
    (overrides node).flatMap fun override ↦ (override.get "fills").objects

theorem IsColorOf.mono {paints others : List Attributes} {color : RGBA}
    (h : IsColorOf paints color) (hsub : paints ⊆ others) : IsColorOf others color := by
  obtain ⟨paint, hpaint, hcolor⟩ := h
  exact ⟨paint, hsub hpaint, hcolor⟩

theorem isColorOf_withStops {paint : Attributes} {color : RGBA}
    (h : readOwnColor paint = .ok color) : IsColorOf (withStops paint) color :=
  ⟨paint, List.mem_cons_self, h⟩

theorem readStops_colors (paint : Attributes) :
    Ensures (fun stops ↦ ∀ color ∈ stops.map ColorStop.color, IsColorOf (withStops paint) color)
      (readStops (paint.get "gradientStops")) := by
  intro stops hstops color hcolor
  obtain ⟨stop, hstop, rfl⟩ := List.mem_map.mp hcolor
  obtain ⟨entry, hentry, hread⟩ := exists_of_mem_right hstops hstop
  obtain ⟨position, _, hread⟩ := bind_eq_ok.mp hread
  obtain ⟨own, hown, hread⟩ := bind_eq_ok.mp hread
  rw [← pure_eq_ok.mp hread]
  exact ⟨entry, List.mem_cons_of_mem paint hentry, hown⟩

theorem readFill_colors (paint : Attributes) :
    Ensures (DrawnIs fun fill ↦ ∀ color ∈ fill.colors, IsColorOf (withStops paint) color)
      (readFill paint) := by
  have hstops := readStops_colors paint
  rw [readFill]
  split
  · refine .bind (fun _ hcolor ↦ isColorOf_withStops hcolor) fun color hcolor ↦ .pure (.drawn ?_)
    exact List.forall_mem_singleton.mpr hcolor
  · exact .bind hstops fun _ hstops ↦ .after fun _ ↦ .pure (.drawn hstops)
  · exact .bind hstops fun _ hstops ↦ .pure (.drawn hstops)
  · exact .bind hstops fun _ hstops ↦ .after fun _ ↦ .pure (.drawn hstops)
  · exact .bind hstops fun _ hstops ↦ .after fun _ ↦ .pure (.drawn hstops)
  · exact .after fun _ ↦ .pure (.drawn fun _ hcolor ↦ absurd hcolor List.not_mem_nil)
  · exact .pure (.unsupported _)

theorem readStroke_colors (node paint : Attributes) :
    Ensures (DrawnIs fun stroke ↦ ∀ color ∈ stroke.paint.colors, IsColorOf (withStops paint) color)
      (readStroke node paint) := by
  refine .after fun width ↦ .after fun dashes ↦ ?_
  dsimp only
  split
  · refine .bind (fun _ hcolor ↦ isColorOf_withStops hcolor) fun color hcolor ↦ .pure (.drawn ?_)
    exact List.forall_mem_singleton.mpr hcolor
  · split
    · exact .bind (readStops_colors paint) fun _ hstops ↦ .after fun _ ↦ .pure (.drawn hstops)
    · exact .pure (.unsupported _)

theorem readEffect_colors (effect : Attributes) :
    Ensures (DrawnIs fun e ↦ ∀ color ∈ e.colors, readOwnColor effect = .ok color)
      (readEffect effect) := by
  have hshadow (inset : Bool) : Ensures (fun s ↦ ∀ color ∈ (Effect.shadow s).colors,
      readOwnColor effect = .ok color) (readShadow inset effect) := by
    refine .after fun x ↦ .after fun y ↦ .after fun blur ↦ .after fun spread ↦ ?_
    exact .bind (fun _ hcolor ↦ hcolor) fun color hcolor ↦
      .pure (List.forall_mem_singleton.mpr hcolor)
  have hblur {scope : BlurScope} {radius : Binary64} : ∀ color ∈ (Effect.blur scope radius).colors,
      readOwnColor effect = .ok color := fun _ hcolor ↦ absurd hcolor List.not_mem_nil
  rw [readEffect]
  split
  · exact .bind (hshadow false) fun _ hs ↦ .pure (.drawn hs)
  · exact .bind (hshadow true) fun _ hs ↦ .pure (.drawn hs)
  · exact .after fun _ ↦ .pure (.drawn hblur)
  · exact .after fun _ ↦ .pure (.drawn hblur)
  · exact .pure (.unsupported _)

theorem readRunColor_isColorOf (fills : List Attributes) :
    Ensures (fun color? ↦ ∀ color ∈ color?.toList, IsColorOf fills color) (readRunColor fills) := by
  rw [readRunColor]
  split
  · next fill hfill =>
      refine .map (fun _ hcolor ↦ hcolor) fun color hcolor ↦ ?_
      exact List.forall_mem_singleton.mpr ⟨fill, List.mem_of_find?_eq_some hfill, hcolor⟩
  · exact .ok fun _ hcolor ↦ absurd hcolor List.not_mem_nil

/-- The colours of an element are all given by its node. -/
theorem Visit.Reads.isColorOf {v : Visit} {element : Element} (h : v.Reads element) :
    ∀ color ∈ element.colors, IsColorOf (colorSources v.node) color := by
  obtain ⟨warnings, hread⟩ := h
  obtain ⟨_, _, _, hstyle, htext, _⟩ := readElement?_eq_some hread
  obtain ⟨fills, strokes, effects, hfills, hstrokes, heffects, hf, hs, he, _⟩ :=
    readStyle_eq_ok hstyle
  intro color hcolor
  simp only [Element.colors, hf, hs, he, List.mem_append, List.mem_flatMap] at hcolor
  -- fills, strokes, effects and runs, each found among the sources it was read from
  rcases hcolor with ((⟨fill, hfill, hcolor⟩ | ⟨stroke, hstroke, hcolor⟩) |
    ⟨effect, heffect, hcolor⟩) | ⟨run, hrun, hcolor⟩
  · obtain ⟨paint, hpaint, hdrawn⟩ := exists_drawn_of_mem hfills hfill
    refine (readFill_colors paint _ hdrawn fill rfl color hcolor).mono fun source hsource ↦ ?_
    have hmem := List.mem_flatMap_of_mem hpaint hsource
    simp only [colorSources, List.mem_append]
    exact Or.inl (Or.inl (Or.inl hmem))
  · obtain ⟨paint, hpaint, hdrawn⟩ := exists_drawn_of_mem hstrokes hstroke
    refine (readStroke_colors v.node paint _ hdrawn stroke rfl color hcolor).mono
      fun source hsource ↦ ?_
    have hmem := List.mem_flatMap_of_mem hpaint hsource
    simp only [colorSources, List.mem_append]
    exact Or.inl (Or.inl (Or.inr hmem))
  · obtain ⟨entry, hentry, hdrawn⟩ := exists_drawn_of_mem heffects heffect
    refine ⟨entry, ?_, readEffect_colors entry _ hdrawn effect rfl color hcolor⟩
    simp only [colorSources, List.mem_append]
    exact Or.inl (Or.inr hentry)
  · unfold readText at htext
    split at htext
    · obtain ⟨runs, hruns, htext⟩ := bind_eq_ok.mp htext
      rw [← (Prod.mk.inj (pure_eq_ok.mp htext)).2] at hrun
      rcases exists_override_of_mem hruns hrun with ⟨_, hplain⟩ | ⟨override, hoverride, hfrom⟩
      · rw [hplain] at hcolor
        exact absurd hcolor List.not_mem_nil
      · refine (readRunColor_isColorOf _ _ hfrom.color color hcolor).mono fun source hsource ↦ ?_
        exact List.mem_append_right _ (List.mem_flatMap_of_mem hoverride hsource)
    · rw [← (Prod.mk.inj (pure_eq_ok.mp htext)).2] at hrun
      exact absurd hrun List.not_mem_nil

/-! ## Styles -/

/-- Whether what a style says besides its colours is of the kinds that there are. -/
structure InRanges (style : Style) : Prop where
  opacity : style.opacity.isUnit = true
  aligns : ∀ stroke ∈ style.strokes, stroke.align ∈ [.center, .inside, .outside]
  scaleModes : ∀ image, Fill.image image ∈ style.fills →
    image.scaleMode ∈ [.fill, .fit, .tile, .crop]
  corners : ∀ topLeft topRight bottomRight bottomLeft,
    style.cornerRadius = some (.corners topLeft topRight bottomRight bottomLeft) →
      [topLeft, topRight, bottomRight, bottomLeft].all Binary64.isZero = false

theorem readStrokeAlign_mem (node paint : Attributes) :
    readStrokeAlign node paint ∈ [StrokeAlign.center, .inside, .outside] := by
  unfold readStrokeAlign
  dsimp only
  generalize StrokeAlign.ofName _ = align
  cases align <;> simp

theorem readScaleMode_mem (mode : Json) :
    Ensures (· ∈ [ScaleMode.fill, .fit, .tile, .crop]) (readScaleMode mode) := by
  cases mode with
  | str s =>
      rw [readScaleMode]
      generalize ScaleMode.ofName s = known
      cases known <;> exact .ok (by decide)
  | arr _ | obj _ => exact .error _
  | _ => exact .ok (by decide)

theorem readStroke_align (node paint : Attributes) :
    Ensures (DrawnIs fun stroke ↦ stroke.align ∈ [.center, .inside, .outside])
      (readStroke node paint) := by
  have halign := readStrokeAlign_mem node paint
  refine .after fun width ↦ .after fun dashes ↦ ?_
  dsimp only
  split
  · exact .after fun color ↦ .pure (.drawn halign)
  · split
    · exact .after fun stops ↦ .after fun heading ↦ .pure (.drawn halign)
    · exact .pure (.unsupported _)

theorem readFill_scaleMode (paint : Attributes) :
    Ensures (DrawnIs fun fill ↦ ∀ image, fill = .image image →
      image.scaleMode ∈ [.fill, .fit, .tile, .crop]) (readFill paint) := by
  rw [readFill]
  split
  · exact .after fun _ ↦ .pure (.drawn fun _ h ↦ Fill.noConfusion h)
  · exact .after fun _ ↦ .after fun _ ↦ .pure (.drawn fun _ h ↦ Fill.noConfusion h)
  · exact .after fun _ ↦ .pure (.drawn fun _ h ↦ Fill.noConfusion h)
  · exact .after fun _ ↦ .after fun _ ↦ .pure (.drawn fun _ h ↦ Fill.noConfusion h)
  · exact .after fun _ ↦ .after fun _ ↦ .pure (.drawn fun _ h ↦ Fill.noConfusion h)
  · refine .bind (readScaleMode_mem _) fun mode hmode ↦ .pure (.drawn fun image himage ↦ ?_)
    rwa [← Fill.image.inj himage]
  · exact .pure (.unsupported _)

theorem readCornerRadius_corners (node : Attributes) :
    Ensures (fun radius ↦ ∀ topLeft topRight bottomRight bottomLeft,
      radius = some (.corners topLeft topRight bottomRight bottomLeft) →
        [topLeft, topRight, bottomRight, bottomLeft].all Binary64.isZero = false)
      (readCornerRadius node) := by
  refine .after fun radius ↦ ?_
  cases radius with
  | some radius => exact .pure fun _ _ _ _ h ↦ nomatch Option.some.inj h
  | none =>
      refine .after fun topLeft ↦ .after fun topRight ↦ .after fun bottomRight ↦
        .after fun bottomLeft ↦ ?_
      split
      · exact .pure fun _ _ _ _ (h : none = some _) ↦ nomatch h
      · next hsome =>
          refine .pure fun _ _ _ _ h ↦ ?_
          obtain ⟨rfl, rfl, rfl, rfl⟩ := CornerRadius.corners.inj (Option.some.inj h)
          exact Bool.eq_false_iff.mpr hsome

theorem readStyle_inRanges (node : Attributes) (kind : NodeKind) :
    Ensures (fun read ↦ InRanges read.1) (readStyle node kind) := by
  refine .bind (readVisible_items readFill_scaleMode _) fun fills hfills ↦ ?_
  refine .bind (readVisible_items (readStroke_align node) _) fun strokes hstrokes ↦ ?_
  refine .after fun effects ↦ .bind (readCornerRadius_corners node) fun corners hcorners ↦ ?_
  have hmodes : ∀ image, Fill.image image ∈ fills.items →
      image.scaleMode ∈ [.fill, .fit, .tile, .crop] :=
    fun image himage ↦ hfills _ himage image rfl
  dsimp only
  split
  · exact .after fun _ ↦ .after fun opacity ↦
      .pure ⟨Binary64.isUnit_clampUnit opacity, hstrokes, hmodes, hcorners⟩
  · exact .after fun _ ↦ .after fun opacity ↦
      .pure ⟨Binary64.isUnit_clampUnit opacity, hstrokes, hmodes, hcorners⟩

/-! ## Documents -/

/-- Whatever a document says, the styles of its scene are in range but for their colours.  Every
colour is that of a paint of the node, and in range exactly if the numbers of that paint are. -/
theorem readDocument_ranges {file : Json} {document : Document}
    (h : readDocument file = .ok document) :
    ∀ element ∈ Tree.preorderForest document.scene, InRanges element.style ∧
      ∃ v ∈ visits file, v.Reads element ∧ ∀ color ∈ element.colors,
        ∃ paint ∈ colorSources v.node, readOwnColor paint = .ok color ∧
          (color.InRange ↔ GivesUnits paint) := by
  intro element helement
  obtain ⟨v, hv, hreads⟩ := exists_visit_of_mem h helement
  obtain ⟨warnings, hread⟩ := id hreads
  refine ⟨readStyle_inRanges v.node _ _ (readElement?_eq_some hread).style, v, hv, hreads,
    fun color hcolor ↦ ?_⟩
  obtain ⟨paint, hpaint, hown⟩ := hreads.isColorOf color hcolor
  exact ⟨paint, hpaint, hown, inRange_iff_givesUnits hown⟩

/-- A poster with a gradient, a picture, a stroke and a shadow, and a text with a red word. -/
def poster : Json :=
  .obj [("children", .arr [.obj [("id", .str "0:1"), ("children", .arr [
    .obj [("id", .str "1:1"), ("type", .str "FRAME"), ("opacity", .int 3),
      ("rectangleCornerRadii", .arr [.int 0, .int 4]),
      ("fills", .arr [
        .obj [("type", .str "GRADIENT_RADIAL"), ("gradientStops", .arr [
          .obj [("color", .obj [("r", .int 1)])], .obj [("opacity", .int 0)]])],
        .obj [("type", .str "IMAGE"), ("scaleMode", .str "COVER")]]),
      ("strokes", .arr [.obj [("type", .str "SOLID"), ("alignment", .str "MIDDLE")]]),
      ("effects", .arr [.obj [("type", .str "DROP_SHADOW"), ("color", .obj [("a", .str "0.5")])]]),
      ("children", .arr [
        .obj [("id", .str "1:2"), ("type", .str "TEXT"), ("characters", .str "Ok"),
          ("characterStyleOverrides", .arr [.int 1]),
          ("styleOverrideTable", .obj [("1", .obj [("fills", .arr [
            .obj [("type", .str "SOLID"), ("color", .obj [("r", .int 1)])]])])])]])]])]])]

/-- All of its colours are in range. -/
theorem readDocument_ranges_poster : ∃ document, readDocument poster = .ok document ∧
    (Tree.preorderForest document.scene).map (·.colors.length) = [4, 1] ∧
    ∀ element ∈ Tree.preorderForest document.scene, InRanges element.style ∧
      ∀ color ∈ element.colors, color.InRange := by
  obtain ⟨document, hread, hcolors⟩ : ∃ document, readDocument poster = .ok document ∧
      ((Tree.preorderForest document.scene).map (·.colors.length) == [4, 1]) = true :=
    exists_ok_of_any (by decide +kernel)
  have hunits : ((visits poster).all fun v ↦ (colorSources v.node).all fun paint ↦
      (channelFields paint).all fun field ↦ field.toNumber.toOption.all (·.isUnit)) = true := by
    decide +kernel
  refine ⟨document, hread, eq_of_beq hcolors, fun element helement ↦ ?_⟩
  obtain ⟨hranges, v, hv, _, hall⟩ := readDocument_ranges hread element helement
  refine ⟨hranges, fun color hcolor ↦ ?_⟩
  obtain ⟨paint, hpaint, _, hiff⟩ := hall color hcolor
  refine hiff.mpr fun field hfield x hx ↦ ?_
  have hunit := List.all_eq_true.mp (List.all_eq_true.mp (List.all_eq_true.mp hunits v hv)
    paint hpaint) field hfield
  rw [hx] at hunit
  exact hunit

/-- A box twice as red as red. -/
def glare : Json :=
  .obj [("children", .arr [.obj [("id", .str "0:1"), ("children", .arr [
    .obj [("id", .str "1:1"), ("type", .str "RECTANGLE"), ("fills", .arr [
      .obj [("type", .str "SOLID"), ("color", .obj [("r", .int 2)])]])]])]])]

/-- Its red channel is two. -/
theorem not_inRange_glare : ∃ document, readDocument glare = .ok document ∧
    ∃ element ∈ Tree.preorderForest document.scene, ∃ color ∈ element.colors,
      color.red = 2 ∧ ¬ color.InRange := by
  obtain ⟨document, hread, hany⟩ : ∃ document, readDocument glare = .ok document ∧
      ((Tree.preorderForest document.scene).any fun element ↦ element.colors.any fun color ↦
        decide (color.red = 2 ∧ ¬ color.InRange)) = true :=
    exists_ok_of_any (by decide +kernel)
  obtain ⟨element, helement, hany⟩ := List.any_eq_true.mp hany
  obtain ⟨color, hcolor, hred⟩ := List.any_eq_true.mp hany
  exact ⟨document, hread, element, helement, color, hcolor, of_decide_eq_true hred⟩

end Design
end DesignToWeb
