import DesignToWeb.Css.Stylesheet
import DesignToWeb.Proofs.Binary64.Rounding
import DesignToWeb.Proofs.Numbers
import DesignToWeb.Proofs.Outcome

/-!
# When a stylesheet can be written

A number is written unless it is infinite.  So the declarations of an element whose
numbers are finite fail for nothing but the numbers computed from two: its place,
its letter spacings and the percentages of its gradients.
-/

namespace DesignToWeb

open Outcome

variable {α β : Type}

/-- Whether a computation comes to a value under a condition, and without it meets an infinite
number. -/
structure ReturnsIf (P : Prop) (x : Except Fault α) : Prop where
  returns : P → Returns x
  overflows : ¬ P → x = .error .infinityToInteger

namespace ReturnsIf

variable {P Q : Prop} {x : Except Fault α}

theorem congr (h : ReturnsIf P x) (hPQ : P ↔ Q) : ReturnsIf Q x := by
  rwa [← hPQ]

theorem of_returns (h : Returns x) (hP : P) : ReturnsIf P x := ⟨fun _ ↦ h, (absurd hP ·)⟩

/-- What follows is reached under the condition only. -/
theorem bind {f : α → Except Fault β} (hx : ReturnsIf P x) (hf : P → ∀ a, ReturnsIf Q (f a)) :
    ReturnsIf (P ∧ Q) (x >>= f) := by
  constructor
  · rintro ⟨hP, hQ⟩
    exact (hx.returns hP).bind fun a ↦ (hf hP a).returns hQ
  · intro hnot
    by_cases hP : P
    · obtain ⟨a, rfl⟩ := hx.returns hP
      exact (hf hP a).overflows fun hQ ↦ hnot ⟨hP, hQ⟩
    · rw [hx.overflows hP]
      rfl

theorem andThen {f : α → Except Fault β} (hx : ReturnsIf P x) (hf : ∀ a, Returns (f a)) :
    ReturnsIf P (x >>= f) :=
  (hx.bind fun _ a ↦ of_returns (hf a) trivial).congr (and_iff_left trivial)

theorem after {f : α → Except Fault β} (hx : Returns x) (hf : ∀ a, ReturnsIf P (f a)) :
    ReturnsIf P (x >>= f) :=
  ((of_returns hx trivial).bind fun _ ↦ hf).congr (and_iff_right trivial)

theorem eq_of_error {fault : Fault} (h : ReturnsIf P x) (hx : x = .error fault) :
    fault = .infinityToInteger := by
  by_cases hP : P
  · obtain ⟨a, ha⟩ := h.returns hP
    rw [ha] at hx
    exact nomatch hx
  · rw [h.overflows hP] at hx
    exact (Except.error.inj hx).symm

theorem mapM {R : α → Prop} {f : α → Except Fault β} {as : List α}
    (h : ∀ a ∈ as, ReturnsIf (R a) (f a)) : ReturnsIf (∀ a ∈ as, R a) (as.mapM f) := by
  induction as with
  | nil => exact of_returns (.pure []) fun _ h ↦ absurd h List.not_mem_nil
  | cons a as ih =>
      have hrest := ih fun b hb ↦ h b (List.mem_cons_of_mem a hb)
      rw [List.mapM_cons]
      refine ((h a List.mem_cons_self).bind fun _ _ ↦ hrest.andThen fun _ ↦ .pure _).congr ?_
      exact List.forall_mem_cons.symm

end ReturnsIf

namespace Css

/-! ## Numbers and colours -/

theorem returns_toInt {x : Binary64} (h : x.isFinite = true) : Returns x.toInt := by
  cases x with
  | finite _ _ => exact .ok _
  | infinite _ | nan => exact Bool.noConfusion h

theorem returnsIf_number {x : Binary64} (h : x.isNaN = false) :
    ReturnsIf (x.isFinite = true) (number x) := by
  constructor
  · intro hfinite
    exact (returns_toInt (Binary64.isFinite_roundPlaces 3 hfinite)).bind fun _ ↦ .pure _
  · intro hinfinite
    cases x with
    | finite _ _ => exact absurd rfl hinfinite
    | infinite _ => rfl
    | nan => exact Bool.noConfusion h

theorem returns_number {x : Binary64} (h : x.isFinite = true) : Returns (number x) :=
  (returnsIf_number (Binary64.isNaN_of_isFinite h)).returns h

theorem returnsIf_pixels {x : Binary64} (h : x.isNaN = false) :
    ReturnsIf (x.isFinite = true) (pixels x) :=
  (returnsIf_number h).andThen fun _ ↦ .pure _

theorem returns_pixels {x : Binary64} (h : x.isFinite = true) : Returns (pixels x) :=
  (returns_number h).bind fun _ ↦ .pure _

/-- A channel is held between zero and one, so whatever it is it can be written. -/
theorem returns_channel (x : Binary64) : Returns (channel x) := by
  have hscale : Binary64.Within (8 + 1074) (255 : Binary64) :=
    Binary64.within_ofNat (by decide) (by decide)
  have hhalf : Binary64.Within (8 + 1074) (.ofDecimal false 5 (-1)) := by decide +kernel
  have hproduct := (Binary64.within_clampUnit x).mul hscale (l := 8 + 1074) (by decide) (by decide)
  exact (returns_toInt (hproduct.add hhalf (by decide)).isFinite).bind fun _ ↦ .pure _

theorem returns_rgba (color : RGBA) : Returns (rgba color) := by
  refine (returns_channel _).bind fun _ ↦ (returns_channel _).bind fun _ ↦ ?_
  refine (returns_channel _).bind fun _ ↦ .bind (returns_number ?_) fun _ ↦ .pure _
  exact (Binary64.within_clampUnit color.alpha).isFinite

/-! ## Gradients -/

theorem isNaN_percentage {stop : ColorStop} (h : stop.position.isFinite = true) :
    (stop.position * 100).isNaN = false := by
  have hhundred : Binary64.Within (7 + 1074) (100 : Binary64) :=
    Binary64.within_ofNat (by decide) (by decide)
  exact Binary64.isNaN_mul h hhundred.isFinite

theorem returnsIf_gradientStop {stop : ColorStop} (h : stop.position.isFinite = true) :
    ReturnsIf ((stop.position * 100).isFinite = true) (gradientStop stop) := by
  refine .after (returns_rgba stop.color) fun _ ↦ ?_
  have hposition := returnsIf_number (Binary64.isNaN_roundPlaces 1 (isNaN_percentage h))
  exact (hposition.andThen fun _ ↦ .pure _).congr (Binary64.isFinite_roundPlaces_iff 1)

theorem returnsIf_gradientStops {stops : List ColorStop}
    (h : AllFinite (stops.flatMap ColorStop.numbers)) :
    ReturnsIf (AllFinite (stops.map fun stop ↦ stop.position * 100)) (gradientStops stops) := by
  have hstop : ∀ stop ∈ stops, stop.position.isFinite = true := by
    intro stop hstop
    exact (allFinite_cons.mp (allFinite_flatMap.mp h stop hstop)).1
  have hstops := ReturnsIf.mapM fun stop hmem ↦ returnsIf_gradientStop (hstop stop hmem)
  exact (hstops.andThen fun _ ↦ .pure _).congr (by simp [AllFinite])

theorem returnsIf_fillLayer {fill : Fill} (h : AllFinite fill.numbers) :
    ReturnsIf (AllFinite fill.percentages) (fillLayer fill) := by
  cases fill with
  | solid color =>
      exact .of_returns ((returns_rgba color).bind fun _ ↦ .pure _) allFinite_nil
  | linear stops heading | conic stops heading =>
      obtain ⟨hheading, hstops⟩ := allFinite_cons.mp h
      refine .after (returns_number hheading) fun _ ↦ ?_
      exact (returnsIf_gradientStops hstops).andThen fun _ ↦ .pure _
  | radial stops => exact (returnsIf_gradientStops h).andThen fun _ ↦ .pure _
  | image image => exact .of_returns (.ok _) allFinite_nil

theorem returnsIf_background {fills : List Fill} (h : AllFinite (fills.flatMap Fill.numbers)) :
    ReturnsIf (AllFinite (fills.flatMap Fill.percentages)) (background fills) := by
  have hlayers : ReturnsIf (∀ fill ∈ fills.reverse, AllFinite fill.percentages)
      (fills.reverse.mapM fillLayer) := by
    refine .mapM fun fill hfill ↦ returnsIf_fillLayer ?_
    exact allFinite_flatMap.mp h fill (List.mem_reverse.mp hfill)
  refine ((hlayers.andThen fun _ ↦ .pure _).andThen fun _ ↦ .pure _).congr ?_
  simp only [List.mem_reverse, allFinite_flatMap]

/-! ## Layouts -/

theorem returns_extent {extent : Extent} (h : AllFinite extent.numbers) :
    Returns (Css.extent extent) := by
  cases extent with
  | auto => exact .ok _
  | length value => exact returns_pixels (allFinite_cons.mp h).1

theorem returns_sizes {width height : Binary64} (h : AllFinite [width, height]) :
    Returns (sizes width height) := by
  simp only [allFinite_cons, allFinite_nil, and_true] at h
  exact (returns_pixels h.1).bind fun _ ↦ (returns_pixels h.2).bind fun _ ↦ .pure _

theorem returns_flowRules {box : FlowBox} (h : AllFinite (Layout.flow box).numbers) :
    Returns (flowRules box) := by
  simp only [Layout.numbers, Padding.numbers, allFinite_cons, allFinite_append] at h
  obtain ⟨hgap, ⟨⟨htop, hright, hbottom, hleft, _⟩, hwidth⟩, hheight⟩ := h
  refine (returns_pixels hgap).bind fun _ ↦ ?_
  refine (returns_pixels htop).bind fun _ ↦ (returns_pixels hright).bind fun _ ↦ ?_
  refine (returns_pixels hbottom).bind fun _ ↦ (returns_pixels hleft).bind fun _ ↦ ?_
  exact (returns_extent hwidth).bind fun _ ↦ (returns_extent hheight).bind fun _ ↦ .pure _

theorem returnsIf_layoutRules {layout : Layout} (h : AllFinite layout.numbers)
    (hoffsets : ∀ x ∈ layout.offsets, x.isNaN = false) :
    ReturnsIf (AllFinite layout.offsets) (layoutRules layout) := by
  cases layout with
  | flow box => exact .of_returns (returns_flowRules h) allFinite_nil
  | flowItem width height => exact .of_returns (returns_sizes h) allFinite_nil
  | absolute x y width height =>
      simp only [Layout.offsets, List.forall_mem_cons] at hoffsets
      have hx := returnsIf_pixels hoffsets.1
      have hy := returnsIf_pixels hoffsets.2.1
      refine (hx.bind fun _ _ ↦ hy.andThen fun _ ↦ ?_).congr (by simp [Layout.offsets])
      exact (returns_sizes h).bind fun _ ↦ .pure _
  | unplaced => exact .of_returns (.ok _) allFinite_nil

/-! ## Strokes, shadows and corners -/

theorem mem_of_drawnStroke? {strokes : List Stroke} {stroke : Stroke} {color : RGBA}
    (h : drawnStroke? strokes = some (stroke, color)) : stroke ∈ strokes := by
  unfold drawnStroke? at h
  split at h
  · split at h
    · split at h
      · rw [← (Prod.mk.inj (Option.some.inj h)).1]
        exact List.mem_singleton_self _
      · exact nomatch h
    · exact nomatch h
  · exact nomatch h

/-- A stroke that is drawn is a line of its width and colour, whatever it is written as. -/
theorem returns_line {α : Type} {strokes : List Stroke}
    (h : AllFinite (strokes.flatMap Stroke.numbers)) {stroke : Stroke} {color : RGBA}
    (hdrawn : drawnStroke? strokes = some (stroke, color)) (write : String → String → α) :
    Returns (do return write (← pixels stroke.width) (← rgba color)) := by
  have hwidth : stroke.width.isFinite = true :=
    (allFinite_cons.mp (allFinite_flatMap.mp h stroke (mem_of_drawnStroke? hdrawn))).1
  exact (returns_pixels hwidth).bind fun _ ↦ (returns_rgba color).bind fun _ ↦ .pure _

theorem returns_border {strokes : List Stroke} (h : AllFinite (strokes.flatMap Stroke.numbers)) :
    Returns (border strokes) := by
  unfold border
  split
  · rename_i stroke color hdrawn
    split
    · exact returns_line h hdrawn _
    · exact .ok _
  · exact .ok _

theorem returns_ring? {strokes : List Stroke} (h : AllFinite (strokes.flatMap Stroke.numbers)) :
    Returns (ring? strokes) := by
  unfold ring?
  split
  · rename_i stroke color hdrawn
    split
    · exact returns_line h hdrawn _
    · exact .ok _
  · exact .ok _

theorem returns_shadow {s : Shadow} (h : AllFinite (Effect.shadow s).numbers) :
    Returns (shadow s) := by
  simp only [Effect.numbers, allFinite_append, allFinite_cons] at h
  obtain ⟨⟨hx, hy, hblur, hspread, _⟩, _⟩ := h
  have hlengths (write : String → String → String → String → String) : Returns (do
      let x ← pixels s.x
      let y ← pixels s.y
      let blur ← pixels s.blur
      let spread ← pixels s.spread
      return write x y blur spread) := by
    refine (returns_pixels hx).bind fun _ ↦ (returns_pixels hy).bind fun _ ↦ ?_
    exact (returns_pixels hblur).bind fun _ ↦ (returns_pixels hspread).bind fun _ ↦ .pure _
  unfold shadow
  cases s.color with
  | some color => exact (returns_rgba color).bind fun _ ↦ hlengths _
  | none => exact .bind (.pure _) fun _ ↦ hlengths _

theorem returns_boxShadow {effects : List Effect} {strokes : List Stroke}
    (heffects : AllFinite (effects.flatMap Effect.numbers))
    (hstrokes : AllFinite (strokes.flatMap Stroke.numbers)) :
    Returns (boxShadow effects strokes) := by
  refine (returns_ring? hstrokes).bind fun _ ↦ .bind (.mapM fun s hs ↦ ?_) fun _ ↦ .pure _
  obtain ⟨effect, heffect, hs⟩ := List.mem_filterMap.mp hs
  cases effect with
  | shadow s' =>
      obtain rfl := Option.some.inj hs
      exact returns_shadow (allFinite_flatMap.mp heffects _ heffect)
  | blur _ _ => exact nomatch hs

theorem returns_opacity (x : Binary64) : Returns (opacity x) := by
  unfold opacity
  split
  · exact (returns_number (Binary64.within_clampUnit x).isFinite).bind fun _ ↦ .pure _
  · exact .pure _

theorem returns_cornerRadius {corners : Option CornerRadius}
    (h : AllFinite (corners.toList.flatMap CornerRadius.numbers)) :
    Returns (cornerRadius corners) := by
  rw [allFinite_flatMap] at h
  cases corners with
  | none => exact .ok _
  | some corners =>
      have hcorners := h corners (List.mem_singleton_self corners)
      cases corners with
      | uniform radius => exact (returns_pixels (allFinite_cons.mp hcorners).1).bind fun _ ↦ .pure _
      | corners topLeft topRight bottomRight bottomLeft =>
          exact .bind (.mapM fun radius hradius ↦ returns_pixels (hcorners radius hradius))
            fun _ ↦ .pure _

/-! ## Type -/

theorem returnsIf_optional (property : Property)
    {write : Binary64 → Except Fault String} {field : Option Binary64}
    (h : ∀ x, field = some x → ReturnsIf (x.isFinite = true) (write x)) :
    ReturnsIf (AllFinite field.toList) (optional property write field) := by
  cases field with
  | none => exact .of_returns (.ok _) allFinite_nil
  | some x =>
      simp only [optional]
      split
      · refine .of_returns (.ok _) ?_
        cases x with
        | finite _ _ => exact allFinite_cons.mpr ⟨rfl, allFinite_nil⟩
        | infinite _ | nan => contradiction
      · exact ((h x rfl).andThen fun _ ↦ .pure _).congr (by simp)

theorem returnsIf_typographyRules {t : Typography} (h : IsMeasuredType (some t)) :
    ReturnsIf (AllFinite (letterSpacingOf (some t))) (typographyRules t) := by
  have hnumbers := allFinite_flatMap.mp h.numbers t (List.mem_singleton_self t)
  simp only [Typography.numbers, allFinite_cons, allFinite_append] at hnumbers
  obtain ⟨hsize, hweight, hlineHeight⟩ := hnumbers
  have hfinite {field : Option Binary64} {x : Binary64} (hfield : AllFinite field.toList)
      (hx : field = some x) : x.isNaN = false :=
    Binary64.isNaN_of_isFinite (allFinite_toList.mp hfield x hx)
  have hweight := (returnsIf_optional .fontWeight fun x hx ↦
    returnsIf_number (hfinite hweight hx)).returns hweight
  have hlineHeight := (returnsIf_optional .lineHeight fun x hx ↦
    returnsIf_pixels (hfinite hlineHeight hx)).returns hlineHeight
  have hspacing := returnsIf_optional .letterSpacing fun x hx ↦
    returnsIf_pixels (h.letterSpacing x (Option.mem_toList.mpr hx))
  refine .after (returns_pixels hsize) fun _ ↦ .after hweight fun _ ↦ .after hlineHeight fun _ ↦ ?_
  exact hspacing.andThen fun _ ↦ .pure _

theorem returnsIf_changedTypography {run : Typography} {base : Option Typography}
    (hrun : IsMeasuredType (some run)) (hbase : IsMeasuredType base) :
    ReturnsIf (AllFinite (letterSpacingOf base) ∧ AllFinite (letterSpacingOf (some run)))
      (changedTypography run base) := by
  have hrules := returnsIf_typographyRules hrun
  unfold changedTypography
  cases base with
  | some base =>
      exact (returnsIf_typographyRules hbase).bind fun _ _ ↦ hrules.andThen fun _ ↦ .pure _
  | none =>
      refine .bind (.of_returns (.pure _) allFinite_nil) fun _ _ ↦ ?_
      exact hrules.andThen fun _ ↦ .pure _

theorem returnsIf_runRules {run : TextRun} {base : Option Typography}
    (hrun : IsMeasuredType run.typography) (hbase : IsMeasuredType base)
    (hfinite : AllFinite (letterSpacingOf base)) :
    ReturnsIf (AllFinite (letterSpacingOf run.typography)) (runRules run base) := by
  unfold runRules
  cases htypography : run.typography with
  | some typography =>
      rw [htypography] at hrun
      have hchanged := (returnsIf_changedTypography hrun hbase).congr (and_iff_right hfinite)
      cases run.color with
      | some color => exact .after (returns_rgba color) fun _ ↦ hchanged.andThen fun _ ↦ .pure _
      | none => exact .after (.pure _) fun _ ↦ hchanged.andThen fun _ ↦ .pure _
  | none =>
      refine .of_returns ?_ allFinite_nil
      cases run.color with
      | some color => exact (returns_rgba color).bind fun _ ↦ .pure _
      | none => exact .pure _

/-! ## Stylesheets -/

theorem returnsIf_fillRules (asset : Option ImageAsset) {c : Classified}
    (h : AllFinite c.element.style.numbers) :
    ReturnsIf (c.strategy ≠ .text → AllFinite (c.element.style.fills.flatMap Fill.percentages))
      (fillRules c asset) := by
  have hfills : AllFinite (c.element.style.fills.flatMap Fill.numbers) := by
    simp only [Style.numbers, allFinite_cons, allFinite_append] at h
    exact h.2.1.1.1.1
  unfold fillRules
  split
  · rename_i htext
    refine .of_returns ?_ fun hnot ↦ absurd htext hnot
    unfold textColor
    split
    · exact (returns_rgba _).bind fun _ ↦ .pure _
    · exact .ok _
  · rename_i htext
    exact ((returnsIf_background hfills).andThen fun _ ↦ .pure _).congr (by simp [htext])

theorem returnsIf_liveTextRules {c : Classified} (h : IsMeasuredType c.element.style.typography) :
    ReturnsIf (c.strategy = .text → AllFinite (letterSpacingOf c.element.style.typography))
      (liveTextRules c) := by
  unfold liveTextRules
  split
  · rename_i typography hstrategy htypography
    rw [htypography] at h ⊢
    exact ((returnsIf_typographyRules h).andThen fun _ ↦ .pure _).congr (by simp [hstrategy])
  · rename_i hno
    refine .of_returns (.ok _) fun hstrategy ↦ ?_
    cases htypography : c.element.style.typography with
    | some typography => exact absurd htypography (hno typography hstrategy)
    | none => exact allFinite_nil

theorem returnsIf_elementRules (asset : Option ImageAsset) {c : Classified}
    (h : c.element.IsMeasured) :
    ReturnsIf (AllFinite c.element.layout.offsets ∧
      (c.strategy = .markup → AllFinite (c.element.style.fills.flatMap Fill.percentages)) ∧
      (c.strategy = .text → AllFinite (letterSpacingOf c.element.style.typography)))
      (elementRules c asset) := by
  have hlayout := returnsIf_layoutRules
    (allFinite_append.mp (allFinite_append.mp h.numbers).1).1 h.offsets
  have hfills := returnsIf_fillRules asset h.style
  have htype := returnsIf_liveTextRules h.typography
  have hstyle := h.style
  simp only [Style.numbers, allFinite_cons, allFinite_append] at hstyle
  obtain ⟨_, ⟨⟨⟨_, hstrokes⟩, heffects⟩, hcorners⟩, _⟩ := hstyle
  refine hlayout.bind fun _ layout ↦ ?_
  dsimp only
  split
  · rename_i himage
    exact .of_returns (.pure _) (by simp [himage])
  · rename_i himage
    refine .congr (hfills.bind fun _ _ ↦ .after (returns_border hstrokes) fun _ ↦
      .after (returns_boxShadow heffects hstrokes) fun _ ↦ .after (returns_opacity _) fun _ ↦
      .after (returns_cornerRadius hcorners) fun _ ↦ htype.andThen fun _ ↦ .pure _) ?_
    cases hstrategy : c.strategy <;> simp_all

theorem returnsIf_runBlocks {c : Classified} (h : c.element.IsMeasured)
    (hbase : c.strategy = .text → AllFinite (letterSpacingOf c.element.style.typography)) :
    ReturnsIf (c.strategy = .text →
      ∀ run ∈ c.element.runs, AllFinite (letterSpacingOf run.typography)) (runBlocks c) := by
  unfold runBlocks
  split
  · rename_i htext
    have hblocks : ReturnsIf (∀ entry ∈ c.element.runs.zipIdx,
        AllFinite (letterSpacingOf entry.1.typography)) _ := .mapM fun entry hentry ↦
      (returnsIf_runRules (h.run (List.fst_mem_of_mem_zipIdx hentry)) h.typography
        (hbase htext.1)).andThen fun rules ↦
          .pure (block? (Naming.spanClass c.id entry.2) rules)
    refine (hblocks.andThen fun _ ↦ .pure _).congr ?_
    rw [← List.forall_mem_map (f := Prod.fst)
      (P := fun run : TextRun ↦ AllFinite (letterSpacingOf run.typography)), List.zipIdx_map_fst]
    exact ⟨fun hruns _ ↦ hruns, fun hruns ↦ hruns htext.1⟩
  · rename_i hstyled
    refine .of_returns (.ok _) fun htext run hrun ↦ ?_
    -- no run differs from the text around it
    have hplain : run.typography = none := by
      cases htypography : run.typography with
      | none => rfl
      | some typography =>
          have hrunStyled : run.isStyled = true := by simp [TextRun.isStyled, htypography]
          exact absurd ⟨htext, List.any_eq_true.mpr ⟨run, hrun, hrunStyled⟩⟩ hstyled
    rw [hplain]
    exact allFinite_nil

theorem returnsIf_elementBlocks (assets : ImageAssets) {c : Classified}
    (h : c.element.IsMeasured) :
    ReturnsIf (AllFinite c.computed) (elementBlocks assets c) := by
  have hrules := returnsIf_elementRules (assets.lookup c.id) h
  refine (hrules.bind fun hcomputed _ ↦
    (returnsIf_runBlocks h hcomputed.2.2).andThen fun _ ↦ .pure _).congr ?_
  simp only [Classified.computed, Element.letterSpacings, allFinite_append]
  cases hstrategy : c.strategy <;> simp [and_assoc]

/-- A stylesheet is written exactly if all that is computed for its elements is finite. -/
theorem returnsIf_stylesheet (assets : ImageAssets) {scene : ClassifiedScene}
    (h : ∀ c ∈ scene.elements, c.element.IsMeasured) :
    ReturnsIf (∀ c ∈ scene.elements, AllFinite c.computed) (stylesheet assets scene) := by
  have hblocks := ReturnsIf.mapM fun c hc ↦ returnsIf_elementBlocks assets (h c hc)
  exact (hblocks.andThen fun _ ↦ .pure _).andThen fun _ ↦ .pure _

end Css
end DesignToWeb
