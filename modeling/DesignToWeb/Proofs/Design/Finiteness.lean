import DesignToWeb.Proofs.Design.Kept
import DesignToWeb.Proofs.Design.Paints
import DesignToWeb.Proofs.Heading
import DesignToWeb.Proofs.Numbers

/-!
# What is read of a node is finite

A field that holds no finite number gives way to a fallback, so the numbers of an
element that come from one field are finite.  The ones that are computed from two
fields may leave the range of numbers, but they are never NaN.
-/

namespace DesignToWeb

open Outcome

/-! ## Paints -/

namespace Design

variable {j : Json} {paint : Attributes}

theorem ofIntChecked_isFinite (n : Int) :
    Ensures (·.isFinite = true) (Binary64.ofIntChecked n) := by
  rw [Binary64.ofIntChecked]
  split
  · exact .ok ‹_›
  · exact .error _

/-- A value comes to its number whatever the fallback, or to the fallback. -/
theorem toNumberOr_cases {fallback x : Binary64} (h : j.toNumberOr fallback = .ok x) :
    x = fallback ∧ j.toNumber = .ok 0 ∨ j.toNumber = .ok x := by
  -- every fallback stands in for the same numbers, those that are not finite
  have hfinite (y : Binary64) (hy : y.finiteOr fallback = x) :
      x = fallback ∧ y.finiteOr 0 = 0 ∨ y.finiteOr 0 = x := by
    unfold Binary64.finiteOr at hy ⊢
    split at hy
    · next hfinite => exact Or.inr ((if_pos hfinite).trans hy)
    · next hinfinite => exact Or.inl ⟨hy.symm, if_neg hinfinite⟩
  cases j with
  | int n => exact Or.inr h
  | float y =>
      refine (hfinite y (Except.ok.inj h)).imp (And.imp_right ?_) ?_
      · exact congrArg Except.ok
      · exact congrArg Except.ok
  | str s =>
      rw [Json.toNumber, Json.toNumberOr]
      rw [Json.toNumberOr] at h
      cases hs : Text.number? s with
      | none =>
          rw [hs] at h
          exact Or.inl ⟨(Except.ok.inj h).symm, rfl⟩
      | some y =>
          rw [hs] at h
          refine (hfinite y (Except.ok.inj h)).imp (And.imp_right ?_) ?_
          · exact congrArg Except.ok
          · exact congrArg Except.ok
  | _ => exact Or.inl ⟨(Except.ok.inj h).symm, rfl⟩

theorem toNumberOr_isFinite {fallback : Binary64} (h : fallback.isFinite = true) :
    Ensures (·.isFinite = true) (j.toNumberOr fallback) := by
  cases j with
  | int n => exact ofIntChecked_isFinite n
  | float x => exact .ok (Binary64.isFinite_finiteOr h x)
  | str s =>
      refine .ok ?_
      cases Text.number? s with
      | none => exact h
      | some x => exact Binary64.isFinite_finiteOr h x
  | _ => exact .ok h

theorem toNumber_isFinite : Ensures (·.isFinite = true) j.toNumber :=
  toNumberOr_isFinite Binary64.isFinite_zero

theorem readColor_numbers (color opacity : Json) :
    Ensures (AllFinite ·.numbers) (readColor color opacity) := by
  refine .bind (toNumberOr_isFinite Binary64.isFinite_one) fun alpha halpha ↦ ?_
  refine .bind toNumber_isFinite fun red hred ↦ ?_
  refine .bind toNumber_isFinite fun green hgreen ↦ ?_
  refine .bind toNumber_isFinite fun blue hblue ↦ ?_
  exact .pure (by simp [RGBA.numbers, halpha, hred, hgreen, hblue])

theorem readStops_numbers (stops : Json) :
    Ensures (fun read ↦ AllFinite (read.flatMap ColorStop.numbers)) (readStops stops) := by
  have hstop (stop : Attributes) : Ensures (AllFinite ·.numbers) (readStop stop) := by
    refine .bind toNumber_isFinite fun position hposition ↦ ?_
    refine .bind (readColor_numbers _ _) fun color hcolor ↦ ?_
    exact .pure (by simp [ColorStop.numbers, hposition, hcolor])
  intro read hread
  rw [allFinite_flatMap]
  exact Ensures.mapM (fun stop _ ↦ hstop stop) read hread

theorem readDirection_isNaN (paint : Attributes) :
    Ensures (fun d ↦ d.1.isNaN = false ∧ d.2.isNaN = false) (readDirection paint) := by
  rw [readDirection]
  split
  · refine .bind toNumber_isFinite fun dx hdx ↦ ?_
    refine .bind toNumber_isFinite fun dy hdy ↦ ?_
    exact .pure ⟨Binary64.isNaN_of_isFinite hdx, Binary64.isNaN_of_isFinite hdy⟩
  · split
    · refine .bind toNumber_isFinite fun x hx ↦ ?_
      refine .bind toNumber_isFinite fun x₀ hx₀ ↦ ?_
      refine .bind toNumber_isFinite fun y hy ↦ ?_
      refine .bind toNumber_isFinite fun y₀ hy₀ ↦ ?_
      exact .pure ⟨Binary64.isNaN_sub hx hx₀, Binary64.isNaN_sub hy hy₀⟩
    · exact .ok ⟨rfl, rfl⟩

theorem readHeading_isFinite (paint : Attributes) :
    Ensures (·.isFinite = true) (readHeading paint) :=
  .bind (readDirection_isNaN paint) fun _ hdirection ↦
    .pure (isFinite_heading hdirection.1 hdirection.2)

def DrawnIs {α : Type} (P : α → Prop) (reading : Reading α) : Prop :=
  ∀ value, reading = .drawn value → P value

theorem DrawnIs.drawn {α : Type} {P : α → Prop} {value : α} (h : P value) :
    DrawnIs P (.drawn value) := by
  intro _ hvalue
  rwa [← Reading.drawn.inj hvalue]

theorem DrawnIs.unsupported {α : Type} {P : α → Prop} (warning : String) :
    DrawnIs P (.unsupported warning) := fun _ h ↦ nomatch h

theorem readVisible_items {α : Type} {P : α → Prop} {read : Attributes → Except Fault (Reading α)}
    (h : ∀ entry, Ensures (DrawnIs P) (read entry)) (entries : List Attributes) :
    Ensures (fun readings ↦ ∀ item ∈ readings.items, P item) (readVisible read entries) := by
  intro readings hreadings item hitem
  obtain ⟨entry, _, hread⟩ := exists_drawn_of_mem hreadings hitem
  exact h entry _ hread item rfl

theorem readFill_numbers (paint : Attributes) :
    Ensures (DrawnIs (AllFinite ·.numbers)) (readFill paint) := by
  have hstops := readStops_numbers (paint.get "gradientStops")
  have hheading := readHeading_isFinite paint
  rw [readFill]
  split
  · exact .bind (readColor_numbers _ _) fun _ hcolor ↦ .pure (.drawn hcolor)
  · exact .bind hstops fun _ hstops ↦ .bind hheading fun _ hheading ↦
      .pure (.drawn (allFinite_cons.mpr ⟨hheading, hstops⟩))
  · exact .bind hstops fun _ hstops ↦ .pure (.drawn hstops)
  · exact .bind hstops fun _ hstops ↦ .bind hheading fun _ hheading ↦
      .pure (.drawn (allFinite_cons.mpr ⟨hheading, hstops⟩))
  · exact .bind hstops fun _ hstops ↦ .bind hheading fun _ hheading ↦
      .pure (.drawn (allFinite_cons.mpr ⟨hheading, hstops⟩))
  · exact .bind (fun _ _ ↦ trivial) fun _ _ ↦ .pure (.drawn allFinite_nil)
  · exact .pure (.unsupported _)

theorem readStroke_numbers (node paint : Attributes) :
    Ensures (DrawnIs (AllFinite ·.numbers)) (readStroke node paint) := by
  refine .bind (toNumberOr_isFinite Binary64.isFinite_one) fun width hwidth ↦ ?_
  refine .bind (.mapM fun _ _ ↦ toNumber_isFinite) fun dashes hdashes ↦ ?_
  have hstroke {paint : StrokePaint} (align : StrokeAlign) (hpaint : AllFinite paint.numbers) :
      AllFinite (Stroke.numbers { paint, align, width, dashes }) :=
    allFinite_cons.mpr ⟨hwidth, allFinite_append.mpr ⟨hdashes, hpaint⟩⟩
  dsimp only
  split
  · refine .bind (readColor_numbers _ _) fun color hcolor ↦ ?_
    exact .pure (.drawn (hstroke _ (by simpa [StrokePaint.numbers] using hcolor)))
  · split
    · refine .bind (readStops_numbers _) fun stops hstops ↦ ?_
      refine .bind (readHeading_isFinite paint) fun heading hheading ↦ ?_
      exact .pure (.drawn (hstroke _ (allFinite_cons.mpr ⟨hheading, hstops⟩)))
    · exact .pure (.unsupported _)

theorem readShadow_numbers (inset : Bool) (effect : Attributes) :
    Ensures (fun s ↦ AllFinite (Effect.shadow s).numbers) (readShadow inset effect) := by
  refine .bind toNumber_isFinite fun x hx ↦ ?_
  refine .bind toNumber_isFinite fun y hy ↦ ?_
  refine .bind toNumber_isFinite fun blur hblur ↦ ?_
  refine .bind toNumber_isFinite fun spread hspread ↦ ?_
  refine .bind (readColor_numbers _ _) fun color hcolor ↦ .pure ?_
  simpa [Effect.numbers, hx, hy, hblur, hspread] using hcolor

theorem readEffect_numbers (effect : Attributes) :
    Ensures (DrawnIs (AllFinite ·.numbers)) (readEffect effect) := by
  have hblur (scope : BlurScope) {radius : Binary64} (h : radius.isFinite = true) :
      AllFinite (Effect.blur scope radius).numbers := allFinite_cons.mpr ⟨h, allFinite_nil⟩
  rw [readEffect]
  split
  · exact .bind (readShadow_numbers _ _) fun _ h ↦ .pure (.drawn h)
  · exact .bind (readShadow_numbers _ _) fun _ h ↦ .pure (.drawn h)
  · exact .bind toNumber_isFinite fun _ h ↦ .pure (.drawn (hblur _ h))
  · exact .bind toNumber_isFinite fun _ h ↦ .pure (.drawn (hblur _ h))
  · exact .pure (.unsupported _)

/-! ## Corners and type -/

theorem allFinite_some {x : Binary64} (h : x.isFinite = true) : AllFinite (some x).toList :=
  allFinite_cons.mpr ⟨h, allFinite_nil⟩

theorem readUniformRadius?_numbers (radius : Json) :
    Ensures (AllFinite ·.toList) (readUniformRadius? radius) := by
  cases radius with
  | int n => exact .map (ofIntChecked_isFinite n) fun _ ↦ allFinite_some
  | float x =>
      refine .ok ?_
      split
      · exact allFinite_some ‹_›
      · exact allFinite_nil
  | _ => exact .ok allFinite_nil

theorem readCorners_all {P : Binary64 → Prop} {radii : List Json}
    (hcorner : ∀ i, Ensures P (radii.getD i (.int 0)).toNumber) :
    Ensures (fun corners ↦ ∀ x ∈ corners.toList.flatMap CornerRadius.numbers, P x)
      (readCorners radii) := by
  refine .bind (hcorner 0) fun topLeft htopLeft ↦ ?_
  refine .bind (hcorner 1) fun topRight htopRight ↦ ?_
  refine .bind (hcorner 2) fun bottomRight hbottomRight ↦ ?_
  refine .bind (hcorner 3) fun bottomLeft hbottomLeft ↦ ?_
  split
  · exact .pure fun x hx ↦ absurd hx List.not_mem_nil
  · refine .pure ?_
    simp [CornerRadius.numbers, htopLeft, htopRight, hbottomRight, hbottomLeft]

theorem readCornerRadius_numbers (node : Attributes) :
    Ensures (fun corners ↦ AllFinite (corners.toList.flatMap CornerRadius.numbers))
      (readCornerRadius node) := by
  refine .bind (readUniformRadius?_numbers _) fun radius hradius ↦ ?_
  cases radius with
  | some radius => exact .pure (by simpa [CornerRadius.numbers] using hradius)
  | none => exact readCorners_all fun _ ↦ toNumber_isFinite

theorem readOverride_numbers (field : Option Json) (base : Option Binary64) :
    Ensures (AllFinite ·.toList) (readOverride field base) := by
  rw [readOverride.eq_def]
  split
  · refine .ok ?_
    cases base with
    | none => exact allFinite_nil
    | some x => exact allFinite_some (Binary64.isFinite_finiteOr Binary64.isFinite_zero x)
  · exact .ok allFinite_nil
  · exact .map toNumber_isFinite fun _ ↦ allFinite_some

/-- A spacing in per cent is a product, and may be infinite. -/
theorem readLetterSpacing_isNaN {fontSize : Binary64} (h : fontSize.isFinite = true)
    (field : Option Json) (base : Option Binary64) :
    Ensures (fun spacing ↦ ∀ x, spacing = some x → x.isNaN = false)
      (readLetterSpacing fontSize field base) := by
  rw [readLetterSpacing.eq_def]
  split
  · refine .bind toNumber_isFinite fun value hvalue ↦ .pure fun x hx ↦ ?_
    rw [← Option.some.inj hx]
    split
    · exact Binary64.isNaN_divNat (Binary64.isNaN_mul h hvalue) 100
    · exact Binary64.isNaN_of_isFinite hvalue
  · intro spacing hspacing x hx
    have hfinite := readOverride_numbers _ _ spacing hspacing
    exact Binary64.isNaN_of_isFinite (allFinite_toList.mp hfinite x hx)

theorem isMeasuredType_none : IsMeasuredType none where
  numbers := allFinite_nil
  letterSpacing _ h := absurd h List.not_mem_nil

theorem isFinite_defaultSize : ({} : Typography).fontSize.isFinite = true := by
  have hsize : Binary64.Within (4 + 1074) (14 : Binary64) :=
    Binary64.within_ofNat (by decide) (by decide)
  exact hsize.isFinite

theorem readTypography_isMeasured (style : Attributes) {base : Typography}
    (h : base.fontSize.isFinite = true) :
    Ensures (fun t ↦ IsMeasuredType (some t)) (readTypography style base) := by
  refine .bind (toNumberOr_isFinite h) fun fontSize hsize ↦ ?_
  refine .bind (readLetterSpacing_isNaN hsize _ _) fun spacing hspacing ↦ ?_
  refine .bind (readOverride_numbers _ _) fun weight hweight ↦ ?_
  refine .bind (readOverride_numbers _ _) fun lineHeight hlineHeight ↦ .pure ⟨?_, ?_⟩
  · rw [allFinite_flatMap]
    intro t ht
    obtain rfl := List.mem_singleton.mp ht
    exact allFinite_cons.mpr ⟨hsize, allFinite_append.mpr ⟨hweight, hlineHeight⟩⟩
  · exact fun x hx ↦ hspacing x (Option.mem_toList.mp hx)

theorem readRunColor_numbers (fills : List Attributes) :
    Ensures (fun color ↦ AllFinite (color.toList.flatMap RGBA.numbers)) (readRunColor fills) := by
  rw [readRunColor]
  split
  · exact .map (readColor_numbers _ _) fun color hcolor ↦ by simpa using hcolor
  · exact .ok allFinite_nil

/-- Whether the numbers of a run are finite and its type is measured. -/
structure IsMeasuredRun (run : TextRun) : Prop where
  color : AllFinite (run.color.toList.flatMap RGBA.numbers)
  typography : IsMeasuredType run.typography

theorem readRun_isMeasured (table : Attributes) {base : Typography}
    (h : base.fontSize.isFinite = true) (key : Json) (text : List Char) :
    Ensures IsMeasuredRun (readRun table base key text) := by
  rw [readRun]
  split
  · exact .ok ⟨allFinite_nil, isMeasuredType_none⟩
  · rename_i override _
    have hcolor := readRunColor_numbers (override.get "fills").objects
    have htypography := readTypography_isMeasured override h
    dsimp only
    split
    · refine .bind (.map htypography fun _ ↦ id) fun _ htypography ↦ ?_
      exact .bind hcolor fun _ hcolor ↦ .pure ⟨hcolor, htypography⟩
    · refine .bind (.pure isMeasuredType_none) fun _ htypography ↦ ?_
      exact .bind hcolor fun _ hcolor ↦ .pure ⟨hcolor, htypography⟩

theorem readRuns_isMeasured (node : Attributes) {base : Typography}
    (h : base.fontSize.isFinite = true) :
    Ensures (fun runs ↦ ∀ run ∈ runs, IsMeasuredRun run) (readRuns node base) := by
  rw [readRuns]
  split
  · exact .ok fun _ hrun ↦ absurd hrun List.not_mem_nil
  · split
    · exact .mapM fun stretch _ ↦ readRun_isMeasured _ h stretch.1 stretch.2
    · exact .ok fun _ hrun ↦ absurd hrun List.not_mem_nil

/-! ## Elements -/

/-- Whether the numbers of a style are finite and its type is measured. -/
structure IsMeasuredStyle (style : Style) : Prop where
  numbers : AllFinite style.numbers
  typography : IsMeasuredType style.typography

theorem readStyle_isMeasured (node : Attributes) (kind : NodeKind) :
    Ensures (fun read ↦ IsMeasuredStyle read.1) (readStyle node kind) := by
  refine .bind (readVisible_items readFill_numbers _) fun fills hfills ↦ ?_
  refine .bind (readVisible_items (readStroke_numbers node) _) fun strokes hstrokes ↦ ?_
  refine .bind (readVisible_items readEffect_numbers _) fun effects heffects ↦ ?_
  refine .bind (readCornerRadius_numbers node) fun corners hcorners ↦ ?_
  have hstyle {typography : Option Typography} (htypography : IsMeasuredType typography)
      (opacity : Binary64) (blendMode : Option String) (isMask : Bool) :
      IsMeasuredStyle { fills := fills.items, strokes := strokes.items, effects := effects.items
                        cornerRadius := corners, typography, opacity := opacity.clampUnit
                        blendMode, isMask } := by
    refine ⟨?_, htypography⟩
    have hopacity := (Binary64.within_clampUnit opacity).isFinite
    simp only [Style.numbers, allFinite_cons, allFinite_append]
    rw [allFinite_flatMap, allFinite_flatMap, allFinite_flatMap]
    exact ⟨hopacity, ⟨⟨⟨hfills, hstrokes⟩, heffects⟩, hcorners⟩, htypography.numbers⟩
  have hopacity := toNumberOr_isFinite Binary64.isFinite_one (j := node.get "opacity")
  have htypography := readTypography_isMeasured (node.get "style").attributes isFinite_defaultSize
  -- only text has a type; the opacity is read after it in either case
  dsimp only
  split
  · refine .bind (.map htypography fun _ ↦ id) fun _ htypography ↦ ?_
    exact .bind hopacity fun _ _ ↦ .pure (hstyle htypography _ _ _)
  · refine .bind (.pure isMeasuredType_none) fun _ htypography ↦ ?_
    exact .bind hopacity fun _ _ ↦ .pure (hstyle htypography _ _ _)

theorem readText_isMeasured (node : Attributes) (kind : NodeKind) {typography : Option Typography}
    (h : IsMeasuredType typography) :
    Ensures (fun text ↦ ∀ run ∈ text.2, IsMeasuredRun run) (readText node kind typography) := by
  have hbase : (typography.getD {}).fontSize.isFinite = true := by
    cases typography with
    | none => exact isFinite_defaultSize
    | some t =>
        have ht := allFinite_flatMap.mp h.numbers t (List.mem_singleton_self t)
        exact (allFinite_cons.mp ht).1
  rw [readText]
  split
  · exact .bind (readRuns_isMeasured node hbase) fun _ hruns ↦ .pure hruns
  · exact .pure fun _ hrun ↦ absurd hrun List.not_mem_nil

/-- Whether the numbers of a layout are finite and its offsets are not NaN. -/
structure IsMeasuredLayout (layout : Layout) : Prop where
  numbers : AllFinite layout.numbers
  offsets : ∀ x ∈ layout.offsets, x.isNaN = false

theorem readFlowBox_isMeasured (node : Attributes) (direction : FlowDirection)
    {width height : Binary64} (hwidth : width.isFinite = true) (hheight : height.isFinite = true) :
    Ensures (fun box ↦ IsMeasuredLayout (.flow box)) (readFlowBox node direction width height) := by
  have hextent : AllFinite (if height.isZero then Extent.auto else .length height).numbers := by
    split
    · exact allFinite_nil
    · exact allFinite_cons.mpr ⟨hheight, allFinite_nil⟩
  have hpadding : Ensures (AllFinite ·.numbers) (readPadding node) := by
    refine .bind toNumber_isFinite fun top htop ↦ ?_
    refine .bind toNumber_isFinite fun right hright ↦ ?_
    refine .bind toNumber_isFinite fun bottom hbottom ↦ ?_
    refine .bind toNumber_isFinite fun left hleft ↦ .pure ?_
    simp [Padding.numbers, htop, hright, hbottom, hleft]
  refine .bind toNumber_isFinite fun gap hgap ↦ .bind hpadding fun padding hpadding ↦ ?_
  refine .pure ⟨?_, fun _ h ↦ absurd h List.not_mem_nil⟩
  have hlength : AllFinite (Extent.length width).numbers :=
    allFinite_cons.mpr ⟨hwidth, allFinite_nil⟩
  simp only [Layout.numbers, allFinite_cons, allFinite_append]
  exact ⟨hgap, ⟨hpadding, hlength⟩, hextent⟩

theorem readLayout_isMeasured (node : Attributes) (parentBox : Option Attributes) (inFlow : Bool) :
    Ensures IsMeasuredLayout (readLayout node parentBox inFlow) := by
  have hrelative (key : String) (box parent : Attributes) :
      Ensures (·.isNaN = false) (relative key box parent) :=
    .bind toNumber_isFinite fun _ hown ↦ .bind toNumber_isFinite fun _ horigin ↦
      .pure (Binary64.isNaN_sub hown horigin)
  refine .bind toNumber_isFinite fun width hwidth ↦ ?_
  refine .bind toNumber_isFinite fun height hheight ↦ ?_
  have hsizes : AllFinite [width, height] := by simp [hwidth, hheight]
  split
  · exact .bind (readFlowBox_isMeasured node _ hwidth hheight) fun _ ↦ .pure
  · split
    · exact .pure ⟨hsizes, fun _ h ↦ absurd h List.not_mem_nil⟩
    · refine .bind (hrelative "x" _ _) fun x hx ↦ .bind (hrelative "y" _ _) fun y hy ↦ ?_
      exact .pure ⟨hsizes, by simp [Layout.offsets, hx, hy]⟩

theorem readElement?_isMeasured {node : Attributes} {parentBox : Option Attributes} {inFlow : Bool}
    {element : Element} {warnings : List String}
    (h : readElement? node parentBox inFlow = .ok (some (element, warnings))) :
    element.IsMeasured := by
  obtain ⟨_, _, _, hstyle, htext, hlayout⟩ := readElement?_eq_some h
  have hstyle := readStyle_isMeasured node element.kind _ hstyle
  have hruns := readText_isMeasured node element.kind hstyle.typography _ htext
  have hlayout := readLayout_isMeasured node parentBox inFlow _ hlayout
  refine ⟨?_, hlayout.offsets, ?_⟩
  · have hrun : ∀ run ∈ element.runs, AllFinite run.numbers := by
      intro run hrun
      exact allFinite_append.mpr ⟨(hruns run hrun).typography.numbers, (hruns run hrun).color⟩
    simp only [Element.numbers, allFinite_append, allFinite_flatMap]
    exact ⟨⟨hlayout.numbers, hstyle.numbers⟩, hrun⟩
  · intro x hx
    rcases List.mem_append.mp hx with hx | hx
    · exact hstyle.typography.letterSpacing x hx
    · obtain ⟨run, hrun, hx⟩ := List.mem_flatMap.mp hx
      exact (hruns run hrun).typography.letterSpacing x hx

end Design
end DesignToWeb
