import DesignToWeb.Css.Stylesheet
import DesignToWeb.Proofs.Css.Values

/-!
# What rules declare

Every group of rules declares properties of its own, with values made of plain
characters.  Only the families of fonts and the addresses of images are written
with others.
-/

namespace DesignToWeb.Css

open Outcome
open Text (MadeOf)

theorem madeOf_name (property : Property) : MadeOf Naming.isSafe property.name := by
  cases property <;> decide

/-- Whether declarations are all of some properties and have plain values. -/
def Declares (properties : List Property) (ds : List Declaration) : Prop :=
  ∀ d ∈ ds, d.property ∈ properties ∧ MadeOf isValueChar d.value

namespace Declares

variable {properties properties' : List Property} {ds ds' : List Declaration}

theorem nil : Declares properties [] := fun _ hd ↦ absurd hd List.not_mem_nil

theorem cons {property : Property} {value : String} (hproperty : property ∈ properties)
    (hvalue : MadeOf isValueChar value) (h : Declares properties ds) :
    Declares properties (⟨property, value⟩ :: ds) := by
  intro d hd
  rcases List.mem_cons.mp hd with rfl | hd
  · exact ⟨hproperty, hvalue⟩
  · exact h d hd

theorem append (h : Declares properties ds) (h' : Declares properties ds') :
    Declares properties (ds ++ ds') := by
  intro d hd
  rcases List.mem_append.mp hd with hd | hd
  · exact h d hd
  · exact h' d hd

theorem mono (h : Declares properties ds) (hsub : properties ⊆ properties') :
    Declares properties' ds :=
  fun d hd ↦ ⟨hsub (h d hd).1, (h d hd).2⟩

theorem notMem (h : Declares properties ds) {property : Property} (hnot : property ∉ properties) :
    ∀ d ∈ ds, d.property ≠ property := by
  rintro d hd rfl
  exact hnot (h d hd).1

end Declares

theorem declares_singleton {property : Property} {value : String}
    (h : MadeOf isValueChar value) : Declares [property] [⟨property, value⟩] :=
  .cons List.mem_cons_self h .nil

/-! ## Paints -/

theorem madeOf_gradientStop {stop : ColorStop} {s : String} (h : gradientStop stop = .ok s) :
    MadeOf isValueChar s := by
  obtain ⟨color, hcolor, h⟩ := bind_eq_ok.mp h
  obtain ⟨position, hposition, h⟩ := bind_eq_ok.mp h
  rw [← pure_eq_ok.mp h]
  exact (((madeOf_rgba hcolor).append (by decide)).append (madeOf_number hposition)).append
    (by decide)

theorem madeOf_gradientStops {stops : List ColorStop} {s : String}
    (h : gradientStops stops = .ok s) : MadeOf isValueChar s := by
  obtain ⟨texts, htexts, h⟩ := bind_eq_ok.mp h
  rw [← pure_eq_ok.mp h]
  exact MadeOf.intercalate (by decide) (madeOf_mapM (fun _ _ ↦ madeOf_gradientStop) htexts)

/-- How the layer of a fill is written: as a colour, or as the stops of a gradient after what begins
it. -/
inductive FillLayer : Fill → Layer → Prop
  | solid {color : RGBA} {text : String} (htext : rgba color = .ok text) :
      FillLayer (.solid color) (.color text)
  | linear {stops : List ColorStop} {heading : Binary64} {angle text : String}
      (hangle : number heading = .ok angle) (htext : gradientStops stops = .ok text) :
      FillLayer (.linear stops heading)
        (.gradient ("linear-gradient(" ++ angle ++ "deg, " ++ text ++ ")"))
  | radial {stops : List ColorStop} {text : String} (htext : gradientStops stops = .ok text) :
      FillLayer (.radial stops) (.gradient ("radial-gradient(circle at center, " ++ text ++ ")"))
  | conic {stops : List ColorStop} {heading : Binary64} {angle text : String}
      (hangle : number heading = .ok angle) (htext : gradientStops stops = .ok text) :
      FillLayer (.conic stops heading)
        (.gradient ("conic-gradient(from " ++ angle ++ "deg at 50% 50%, " ++ text ++ ")"))

/-- Images alone have no layer. -/
theorem fillLayer_eq_ok {fill : Fill} {layer? : Option Layer} (h : fillLayer fill = .ok layer?) :
    (∃ image, fill = .image image ∧ layer? = none) ∨
      ∃ layer, layer? = some layer ∧ FillLayer fill layer := by
  cases fill with
  | solid color =>
      obtain ⟨text, htext, h⟩ := bind_eq_ok.mp h
      exact .inr ⟨_, (pure_eq_ok.mp h).symm, .solid htext⟩
  | linear stops heading =>
      obtain ⟨angle, hangle, h⟩ := bind_eq_ok.mp h
      obtain ⟨text, htext, h⟩ := bind_eq_ok.mp h
      exact .inr ⟨_, (pure_eq_ok.mp h).symm, .linear hangle htext⟩
  | radial stops =>
      obtain ⟨text, htext, h⟩ := bind_eq_ok.mp h
      exact .inr ⟨_, (pure_eq_ok.mp h).symm, .radial htext⟩
  | conic stops heading =>
      obtain ⟨angle, hangle, h⟩ := bind_eq_ok.mp h
      obtain ⟨text, htext, h⟩ := bind_eq_ok.mp h
      exact .inr ⟨_, (pure_eq_ok.mp h).symm, .conic hangle htext⟩
  | image image => exact .inl ⟨image, rfl, (Except.ok.inj h).symm⟩

theorem fillLayer_eq_some {fill : Fill} {layer : Layer} (h : fillLayer fill = .ok (some layer)) :
    FillLayer fill layer := by
  obtain ⟨_, _, hnone⟩ | ⟨_, hsome, hlayer⟩ := fillLayer_eq_ok h
  · exact nomatch hnone
  · rwa [Option.some.inj hsome]

theorem madeOf_fillLayer {fill : Fill} {layer : Layer} (h : fillLayer fill = .ok (some layer)) :
    MadeOf isValueChar layer.text := by
  cases fillLayer_eq_some h with
  | solid htext => exact madeOf_rgba htext
  | linear hangle htext | conic hangle htext =>
      exact (((MadeOf.append (by decide) (madeOf_number hangle)).append (by decide)).append
        (madeOf_gradientStops htext)).append (by decide)
  | radial htext =>
      exact (MadeOf.append (by decide) (madeOf_gradientStops htext)).append (by decide)

theorem declares_background {fills : List Fill} {ds : List Declaration}
    (h : background fills = .ok ds) : Declares [.background] ds := by
  obtain ⟨layers, hlayers, h⟩ := bind_eq_ok.mp h
  rw [← pure_eq_ok.mp h]
  obtain ⟨options, hoptions, hfilter⟩ := bind_eq_ok.mp hlayers
  split
  · exact .nil
  · refine declares_singleton (MadeOf.intercalate (by decide) fun text htext ↦ ?_)
    obtain ⟨layer, hlayer, rfl⟩ := List.mem_map.mp htext
    rw [← pure_eq_ok.mp hfilter, List.mem_filterMap] at hlayer
    obtain ⟨option, hoption, rfl⟩ := hlayer
    obtain ⟨fill, _, hfill⟩ := exists_of_mem_right hoptions hoption
    exact madeOf_fillLayer hfill

theorem declares_textColor {fills : List Fill} {ds : List Declaration}
    (h : textColor fills = .ok ds) : Declares [.color] ds := by
  unfold textColor at h
  split at h
  · obtain ⟨text, htext, h⟩ := bind_eq_ok.mp h
    rw [← pure_eq_ok.mp h]
    exact declares_singleton (madeOf_rgba htext)
  · rw [← Except.ok.inj h]
    exact .nil

def placing : List Property :=
  [.backgroundPosition, .backgroundRepeat, .backgroundSize, .overflow]

theorem declares_scaleModeRules (mode : ScaleMode) : Declares placing (scaleModeRules mode) := by
  have hcentered : Declares placing centered :=
    .cons (by decide) (by decide) (.cons (by decide) (by decide) .nil)
  cases mode with
  | fill => exact hcentered.append (.cons (by decide) (by decide) .nil)
  | fit => exact hcentered.append (.cons (by decide) (by decide) .nil)
  | tile => exact .cons (by decide) (by decide) (.cons (by decide) (by decide) .nil)
  | crop =>
      exact hcentered.append (.cons (by decide) (by decide) (.cons (by decide) (by decide) .nil))
  | other name => exact hcentered.append (.cons (by decide) (by decide) .nil)

/-- Only the address of an image is not plain. -/
theorem mem_imageRules {asset? : Option ImageAsset} {d : Declaration} (hd : d ∈ imageRules asset?) :
    (∃ asset, asset? = some asset ∧ d = ⟨.backgroundImage, "url(\"" ++ asset.address ++ "\")"⟩) ∨
      (d.property ∈ placing ∧ MadeOf isValueChar d.value) := by
  cases asset? with
  | none => exact absurd hd List.not_mem_nil
  | some asset =>
      rcases List.mem_cons.mp hd with rfl | hd
      · exact Or.inl ⟨asset, rfl, rfl⟩
      · exact Or.inr (declares_scaleModeRules asset.scaleMode d hd)

theorem declares_border {strokes : List Stroke} {ds : List Declaration}
    (h : border strokes = .ok ds) : Declares [.border] ds := by
  unfold border at h
  split at h
  · split at h
    · obtain ⟨width, hwidth, h⟩ := bind_eq_ok.mp h
      obtain ⟨color, hcolor, h⟩ := bind_eq_ok.mp h
      rw [← pure_eq_ok.mp h]
      exact declares_singleton (((madeOf_pixels hwidth).append (by decide)).append
        (madeOf_rgba hcolor))
    · rw [← Except.ok.inj h]
      exact .nil
  · rw [← Except.ok.inj h]
    exact .nil

theorem madeOf_ring {strokes : List Stroke} {s : String} (h : ring? strokes = .ok (some s)) :
    MadeOf isValueChar s := by
  unfold ring? at h
  split at h
  · next stroke color _ =>
      split at h
      · next start hstart =>
          have hplain : MadeOf isValueChar start := by
            unfold ringStart? at hstart
            split at hstart
            · rw [← Option.some.inj hstart]
              decide
            · rw [← Option.some.inj hstart]
              decide
            · cases hstart
          obtain ⟨width, hwidth, h⟩ := bind_eq_ok.mp h
          obtain ⟨text, htext, h⟩ := bind_eq_ok.mp h
          rw [← Option.some.inj (pure_eq_ok.mp h)]
          exact ((hplain.append (madeOf_pixels hwidth)).append (by decide)).append
            (madeOf_rgba htext)
      · cases h
  · cases h

theorem madeOf_shadowParts {parts : List String} (h : ∀ part ∈ parts, MadeOf isValueChar part)
    (inset : Bool) :
    MadeOf isValueChar (" ".intercalate parts ++ if inset then " inset" else "") := by
  refine (MadeOf.intercalate (by decide) h).append ?_
  cases inset with
  | false => decide
  | true => decide

theorem rgba_defaultShadowColor :
    rgba ⟨0, 0, 0, .ofDecimal false 25 (-2)⟩ = .ok defaultShadowColor :=
  eq_ok_of_isOkWith (by decide +kernel)

/-- A shadow has a colour, of its own or not, and what is computed after it is the same for both. -/
theorem shadow_eq_ok {s : Shadow} {text : String} (h : shadow s = .ok text) :
    ∃ color x y blur spread, (∃ shade, rgba shade = .ok color) ∧ pixels s.x = .ok x ∧
      pixels s.y = .ok y ∧ pixels s.blur = .ok blur ∧ pixels s.spread = .ok spread ∧
      text = " ".intercalate [x, y, blur, spread, color] ++ if s.inset then " inset" else "" := by
  unfold shadow at h
  cases hcolor : s.color with
  | none =>
      simp only [hcolor] at h
      obtain ⟨color, hdefault, h⟩ := bind_eq_ok.mp h
      obtain ⟨x, hx, h⟩ := bind_eq_ok.mp h
      obtain ⟨y, hy, h⟩ := bind_eq_ok.mp h
      obtain ⟨blur, hblur, h⟩ := bind_eq_ok.mp h
      obtain ⟨spread, hspread, h⟩ := bind_eq_ok.mp h
      have hshade := pure_eq_ok.mp hdefault ▸ rgba_defaultShadowColor
      exact ⟨color, x, y, blur, spread, ⟨_, hshade⟩, hx, hy, hblur, hspread,
        (pure_eq_ok.mp h).symm⟩
  | some own =>
      simp only [hcolor] at h
      obtain ⟨color, hown, h⟩ := bind_eq_ok.mp h
      obtain ⟨x, hx, h⟩ := bind_eq_ok.mp h
      obtain ⟨y, hy, h⟩ := bind_eq_ok.mp h
      obtain ⟨blur, hblur, h⟩ := bind_eq_ok.mp h
      obtain ⟨spread, hspread, h⟩ := bind_eq_ok.mp h
      exact ⟨color, x, y, blur, spread, ⟨own, hown⟩, hx, hy, hblur, hspread,
        (pure_eq_ok.mp h).symm⟩

theorem madeOf_shadow {s : Shadow} {text : String} (h : shadow s = .ok text) :
    MadeOf isValueChar text := by
  obtain ⟨color, x, y, blur, spread, ⟨shade, hcolor⟩, hx, hy, hblur, hspread, rfl⟩ := shadow_eq_ok h
  refine madeOf_shadowParts ?_ s.inset
  simp only [List.mem_cons, List.not_mem_nil, or_false]
  rintro part (rfl | rfl | rfl | rfl | rfl)
  · exact madeOf_pixels hx
  · exact madeOf_pixels hy
  · exact madeOf_pixels hblur
  · exact madeOf_pixels hspread
  · exact madeOf_rgba hcolor

theorem declares_boxShadow {effects : List Effect} {strokes : List Stroke} {ds : List Declaration}
    (h : boxShadow effects strokes = .ok ds) : Declares [.boxShadow] ds := by
  obtain ⟨ring, hring, h⟩ := bind_eq_ok.mp h
  obtain ⟨shadows, hshadows, h⟩ := bind_eq_ok.mp h
  rw [← pure_eq_ok.mp h]
  split
  · exact .nil
  · refine declares_singleton (MadeOf.intercalate (by decide) fun text htext ↦ ?_)
    rcases List.mem_append.mp htext with htext | htext
    · rw [Option.mem_toList.mp htext] at hring
      exact madeOf_ring hring
    · exact madeOf_mapM (fun _ _ ↦ madeOf_shadow) hshadows text htext

theorem declares_opacity {x : Binary64} {ds : List Declaration} (h : opacity x = .ok ds) :
    Declares [.opacity] ds := by
  unfold opacity at h
  split at h
  · obtain ⟨text, htext, h⟩ := bind_eq_ok.mp h
    rw [← pure_eq_ok.mp h]
    exact declares_singleton (madeOf_number htext)
  · rw [← pure_eq_ok.mp h]
    exact .nil

theorem declares_cornerRadius {radius : Option CornerRadius} {ds : List Declaration}
    (h : cornerRadius radius = .ok ds) : Declares [.borderRadius] ds := by
  unfold cornerRadius at h
  split at h
  · rw [← Except.ok.inj h]
    exact .nil
  · obtain ⟨text, htext, h⟩ := bind_eq_ok.mp h
    rw [← pure_eq_ok.mp h]
    exact declares_singleton (madeOf_pixels htext)
  · obtain ⟨texts, htexts, h⟩ := bind_eq_ok.mp h
    rw [← pure_eq_ok.mp h]
    exact declares_singleton
      (MadeOf.intercalate (by decide) (madeOf_mapM (fun _ _ ↦ madeOf_pixels) htexts))

/-! ## Type -/

def typeProperties : List Property :=
  [.fontSize, .fontWeight, .lineHeight, .letterSpacing, .textAlign, .textDecoration,
    .textTransform]

theorem declares_optional {property : Property} {write : Binary64 → Except Fault String}
    {x : Option Binary64} {ds : List Declaration}
    (hwrite : ∀ x s, write x = .ok s → MadeOf isValueChar s)
    (h : optional property write x = .ok ds) : Declares [property] ds := by
  unfold optional at h
  split at h
  · rw [← Except.ok.inj h]
    exact .nil
  · split at h
    · rw [← Except.ok.inj h]
      exact .nil
    · obtain ⟨text, htext, h⟩ := bind_eq_ok.mp h
      rw [← pure_eq_ok.mp h]
      exact declares_singleton (hwrite _ text htext)

theorem madeOf_textAlign (align : String) : MadeOf isValueChar (textAlign align) := by
  unfold textAlign
  split <;> decide

theorem madeOf_textDecoration {decoration text : String}
    (h : textDecoration? decoration = some text) : MadeOf isValueChar text := by
  unfold textDecoration? at h
  split at h
  · rw [← Option.some.inj h]
    decide
  · rw [← Option.some.inj h]
    decide
  · exact nomatch h

theorem madeOf_textTransform {textCase text : String} (h : textTransform? textCase = some text) :
    MadeOf isValueChar text := by
  unfold textTransform? at h
  split at h
  · rw [← Option.some.inj h]
    decide
  · rw [← Option.some.inj h]
    decide
  · rw [← Option.some.inj h]
    decide
  · exact nomatch h

theorem declares_toList {property : Property} {value? : Option String}
    (h : ∀ value, value? = some value → MadeOf isValueChar value) :
    Declares [property] ((value?.map (⟨property, ·⟩)).toList) := by
  cases value? with
  | none => exact .nil
  | some value => exact declares_singleton (h value rfl)

theorem typographyRules_eq_ok {t : Typography} {ds : List Declaration}
    (h : typographyRules t = .ok ds) :
    ∃ rest, ds = ⟨.fontFamily, fontFamily t.fontFamily⟩ :: rest ∧ Declares typeProperties rest := by
  obtain ⟨size, hsize, h⟩ := bind_eq_ok.mp h
  obtain ⟨weight, hweight, h⟩ := bind_eq_ok.mp h
  obtain ⟨lineHeight, hlineHeight, h⟩ := bind_eq_ok.mp h
  obtain ⟨letterSpacing, hletterSpacing, h⟩ := bind_eq_ok.mp h
  refine ⟨_, (pure_eq_ok.mp h).symm, ?_⟩
  have hsize : Declares typeProperties [⟨.fontSize, size⟩] :=
    .cons (by decide) (madeOf_pixels hsize) .nil
  have hweight := declares_optional (fun _ _ ↦ madeOf_number) hweight
  have hlineHeight := declares_optional (fun _ _ ↦ madeOf_pixels) hlineHeight
  have hletterSpacing := declares_optional (fun _ _ ↦ madeOf_pixels) hletterSpacing
  have halign : Declares typeProperties
      (if t.textAlign = "" then [] else [⟨.textAlign, textAlign t.textAlign⟩]) := by
    split
    · exact .nil
    · exact .cons (by decide) (madeOf_textAlign t.textAlign) .nil
  have hdecoration : Declares [.textDecoration]
      ((textDecoration? t.textDecoration).map (⟨.textDecoration, ·⟩)).toList :=
    declares_toList fun _ ↦ madeOf_textDecoration
  have htransform : Declares [.textTransform]
      ((textTransform? t.textCase).map (⟨.textTransform, ·⟩)).toList :=
    declares_toList fun _ ↦ madeOf_textTransform
  exact (((((hsize.append (hweight.mono (by decide))).append (hlineHeight.mono (by decide))).append
    (hletterSpacing.mono (by decide))).append halign).append (hdecoration.mono (by decide))).append
    (htransform.mono (by decide))

theorem liveTextRules_eq_ok {c : Classified} {ds : List Declaration}
    (h : liveTextRules c = .ok ds) :
    ds = [] ∨ ∃ t all, c.strategy = .text ∧ c.element.style.typography = some t ∧
      typographyRules t = .ok all ∧ ds = all ++ [⟨.whiteSpace, "pre-wrap"⟩] := by
  unfold liveTextRules at h
  split at h
  · next t hstrategy htype =>
    obtain ⟨all, hall, h⟩ := bind_eq_ok.mp h
    exact .inr ⟨t, all, hstrategy, htype, hall, (pure_eq_ok.mp h).symm⟩
  · exact .inl (Except.ok.inj h).symm

/-- The type of a run declares what it would by itself, without what the text around it declares. -/
theorem changedTypography_eq_ok {run : Typography} {base : Option Typography}
    {ds : List Declaration} (h : changedTypography run base = .ok ds) :
    ∃ inherited all, typographyRules run = .ok all ∧ ds = all.filter (!inherited.contains ·) ∧
      (inherited = [] ∨ ∃ b, base = some b ∧ typographyRules b = .ok inherited) := by
  unfold changedTypography at h
  split at h
  · next b =>
      obtain ⟨inherited, hinherited, h⟩ := bind_eq_ok.mp h
      obtain ⟨all, hall, h⟩ := bind_eq_ok.mp h
      exact ⟨inherited, all, hall, (pure_eq_ok.mp h).symm, Or.inr ⟨b, rfl, hinherited⟩⟩
  · obtain ⟨inherited, hinherited, h⟩ := bind_eq_ok.mp h
    obtain ⟨all, hall, h⟩ := bind_eq_ok.mp h
    exact ⟨inherited, all, hall, (pure_eq_ok.mp h).symm, Or.inl (pure_eq_ok.mp hinherited).symm⟩

theorem runRules_eq_ok {run : TextRun} {base : Option Typography} {ds : List Declaration}
    (h : runRules run base = .ok ds) :
    ∃ color typography, ds = color ++ typography ∧ Declares [.color] color ∧
      (run.typography = none ∧ typography = [] ∨
        ∃ own, run.typography = some own ∧ changedTypography own base = .ok typography) := by
  unfold runRules at h
  cases hcolor : run.color with
  | none =>
      cases hown : run.typography with
      | none =>
          simp only [hcolor, hown] at h
          exact ⟨[], [], (pure_eq_ok.mp h).symm, .nil, Or.inl ⟨rfl, rfl⟩⟩
      | some own =>
          simp only [hcolor, hown] at h
          obtain ⟨nothing, hnothing, h⟩ := bind_eq_ok.mp h
          obtain ⟨typography, hchanged, h⟩ := bind_eq_ok.mp h
          rw [← pure_eq_ok.mp hnothing] at h
          exact ⟨[], typography, (pure_eq_ok.mp h).symm, .nil, Or.inr ⟨own, rfl, hchanged⟩⟩
  | some color =>
      have hplain {text : String} (htext : rgba color = .ok text) :
          Declares [.color] [⟨.color, text⟩] := declares_singleton (madeOf_rgba htext)
      cases hown : run.typography with
      | none =>
          simp only [hcolor, hown] at h
          obtain ⟨text, htext, h⟩ := bind_eq_ok.mp h
          exact ⟨_, [], (pure_eq_ok.mp h).symm, hplain htext, Or.inl ⟨rfl, rfl⟩⟩
      | some own =>
          simp only [hcolor, hown] at h
          obtain ⟨text, htext, h⟩ := bind_eq_ok.mp h
          obtain ⟨colors, hcolors, h⟩ := bind_eq_ok.mp h
          obtain ⟨typography, hchanged, h⟩ := bind_eq_ok.mp h
          rw [← pure_eq_ok.mp hcolors] at h
          exact ⟨_, typography, (pure_eq_ok.mp h).symm, hplain htext, Or.inr ⟨own, rfl, hchanged⟩⟩

/-! ## Layouts -/

def layoutProperties : List Property :=
  [.display, .flexDirection, .gap, .padding, .alignItems, .justifyContent, .width, .height,
    .position, .left, .top]

theorem madeOf_placement (p : FlowPlacement) : MadeOf isValueChar (placement p) := by
  cases p <;> decide

theorem madeOf_extent {x : Extent} {s : String} (h : extent x = .ok s) : MadeOf isValueChar s := by
  cases x with
  | auto =>
      rw [← Except.ok.inj h]
      decide
  | length x => exact madeOf_pixels h

theorem declares_sizes {width height : Binary64} {groups : List (List Declaration)}
    (h : sizes width height = .ok groups) : Declares layoutProperties groups.flatten := by
  obtain ⟨w, hw, h⟩ := bind_eq_ok.mp h
  obtain ⟨l, hl, h⟩ := bind_eq_ok.mp h
  rw [← pure_eq_ok.mp h]
  exact .cons (by decide) (madeOf_pixels hw) (.cons (by decide) (madeOf_pixels hl) .nil)

theorem declares_placement {property : Property} (hproperty : property ∈ layoutProperties)
    (p? : Option FlowPlacement) :
    Declares layoutProperties (p?.map fun p ↦ [⟨property, placement p⟩]).toList.flatten := by
  cases p? with
  | none => exact .nil
  | some p => exact .cons hproperty (madeOf_placement p) .nil

/-- The direction of a flow is the only value of a layout that could hold anything. -/
theorem declares_flowRules {box : FlowBox} {groups : List (List Declaration)}
    (hdirection : box.direction = .row ∨ box.direction = .column)
    (h : flowRules box = .ok groups) : Declares layoutProperties groups.flatten := by
  obtain ⟨gap, hgap, h⟩ := bind_eq_ok.mp h
  obtain ⟨top, htop, h⟩ := bind_eq_ok.mp h
  obtain ⟨right, hright, h⟩ := bind_eq_ok.mp h
  obtain ⟨bottom, hbottom, h⟩ := bind_eq_ok.mp h
  obtain ⟨left, hleft, h⟩ := bind_eq_ok.mp h
  obtain ⟨width, hwidth, h⟩ := bind_eq_ok.mp h
  obtain ⟨height, hheight, h⟩ := bind_eq_ok.mp h
  rw [← pure_eq_ok.mp h, List.flatten_append, List.flatten_append, List.flatten_append]
  have hname : MadeOf isValueChar box.direction.name := by
    rcases hdirection with hrow | hcolumn
    · rw [hrow]
      decide
    · rw [hcolumn]
      decide
  have hpadding : MadeOf isValueChar (" ".intercalate [top, right, bottom, left]) := by
    refine MadeOf.intercalate (by decide) ?_
    simp only [List.mem_cons, List.not_mem_nil, or_false]
    rintro side (rfl | rfl | rfl | rfl)
    · exact madeOf_pixels htop
    · exact madeOf_pixels hright
    · exact madeOf_pixels hbottom
    · exact madeOf_pixels hleft
  refine .append (.append (.append ?_ ?_) ?_) ?_
  · exact .cons (by decide) (by decide) (.cons (by decide) hname
      (.cons (by decide) (madeOf_pixels hgap) (.cons (by decide) hpadding .nil)))
  · exact declares_placement (by decide) box.align
  · exact declares_placement (by decide) box.justify
  · exact .cons (by decide) (madeOf_extent hwidth) (.cons (by decide) (madeOf_extent hheight)
      (.cons (by decide) (by decide) .nil))

theorem declares_layoutRules {layout : Layout} {groups : List (List Declaration)}
    (hdirection : ∀ box, layout = .flow box → box.direction = .row ∨ box.direction = .column)
    (h : layoutRules layout = .ok groups) : Declares layoutProperties groups.flatten := by
  cases layout with
  | flow box => exact declares_flowRules (hdirection box rfl) h
  | flowItem width height => exact declares_sizes h
  | absolute x y width height =>
      obtain ⟨left, hleft, h⟩ := bind_eq_ok.mp h
      obtain ⟨top, htop, h⟩ := bind_eq_ok.mp h
      obtain ⟨groups', hsizes, h⟩ := bind_eq_ok.mp h
      rw [← pure_eq_ok.mp h, List.flatten_cons]
      exact .append (.cons (by decide) (by decide) (.cons (by decide) (madeOf_pixels hleft)
        (.cons (by decide) (madeOf_pixels htop) .nil))) (declares_sizes hsizes)
  | unplaced =>
      rw [← Except.ok.inj h]
      exact .nil

/-! ## Elements and runs -/

/-- What an element declares with plain values, its layout apart. -/
def styleProperties : List Property :=
  [.background, .color, .border, .boxShadow, .opacity, .borderRadius, .whiteSpace] ++ placing ++
    typeProperties

/-- The declarations of a style, given the bitmap of the element. -/
inductive StyleDeclaration (asset? : Option ImageAsset) : Declaration → Prop where
  | plain {property : Property} {value : String} (hproperty : property ∈ styleProperties)
      (hvalue : MadeOf isValueChar value) : StyleDeclaration asset? ⟨property, value⟩
  | family (family : String) : StyleDeclaration asset? ⟨.fontFamily, fontFamily family⟩
  | image {asset : ImageAsset} (hasset : asset? = some asset) :
      StyleDeclaration asset? ⟨.backgroundImage, "url(\"" ++ asset.address ++ "\")"⟩

namespace StyleDeclaration

variable {asset? : Option ImageAsset} {d : Declaration}

theorem property_ne_position (h : StyleDeclaration asset? d) : d.property ≠ .position := by
  cases h with
  | plain hproperty hvalue =>
      rintro rfl
      exact absurd hproperty (by decide)
  | family family => exact nofun
  | image hasset => exact nofun

theorem ofDeclares {properties : List Property} {ds : List Declaration}
    (h : Declares properties ds) (hsub : properties ⊆ styleProperties) :
    ∀ d ∈ ds, StyleDeclaration asset? d :=
  fun d hd ↦ .plain (hsub (h d hd).1) (h d hd).2

theorem ofTypography {t : Typography} {ds : List Declaration} (h : typographyRules t = .ok ds) :
    ∀ d ∈ ds, StyleDeclaration asset? d := by
  obtain ⟨rest, rfl, hrest⟩ := typographyRules_eq_ok h
  intro d hd
  rcases List.mem_cons.mp hd with rfl | hd
  · exact .family t.fontFamily
  · exact ofDeclares hrest (by decide) d hd

theorem ofFill {c : Classified} {ds : List Declaration} (h : fillRules c asset? = .ok ds) :
    ∀ d ∈ ds, StyleDeclaration asset? d := by
  unfold fillRules at h
  split at h
  · exact ofDeclares (declares_textColor h) (by decide)
  · obtain ⟨layers, hlayers, h⟩ := bind_eq_ok.mp h
    rw [← pure_eq_ok.mp h]
    intro d hd
    rcases List.mem_append.mp hd with hd | hd
    · exact ofDeclares (declares_background hlayers) (by decide) d hd
    · rcases mem_imageRules hd with ⟨asset, hasset, rfl⟩ | ⟨hproperty, hvalue⟩
      · exact .image hasset
      · exact .plain (List.mem_append_left _ (List.mem_append_right _ hproperty)) hvalue

theorem ofLiveText {c : Classified} {ds : List Declaration} (h : liveTextRules c = .ok ds) :
    ∀ d ∈ ds, StyleDeclaration asset? d := by
  intro d hd
  obtain rfl | ⟨t, all, _, _, hall, rfl⟩ := liveTextRules_eq_ok h
  · exact absurd hd List.not_mem_nil
  · rcases List.mem_append.mp hd with hd | hd
    · exact ofTypography hall d hd
    · rw [List.mem_singleton.mp hd]
      exact .plain (by decide) (by decide)

theorem ofRun {run : TextRun} {base : Option Typography} {ds : List Declaration}
    (h : runRules run base = .ok ds) : ∀ d ∈ ds, StyleDeclaration asset? d := by
  obtain ⟨color, typography, rfl, hcolor, htypography⟩ := runRules_eq_ok h
  intro d hd
  rcases List.mem_append.mp hd with hd | hd
  · exact ofDeclares hcolor (by decide) d hd
  · rcases htypography with ⟨_, rfl⟩ | ⟨own, _, hchanged⟩
    · exact absurd hd List.not_mem_nil
    · obtain ⟨inherited, all, hall, rfl, _⟩ := changedTypography_eq_ok hchanged
      exact ofTypography hall d (List.mem_of_mem_filter hd)

end StyleDeclaration

/-- The rules of an element that is not exported, part by part. -/
theorem elementRules_eq_parts {c : Classified} {asset? : Option ImageAsset}
    {ds : List Declaration} (hstrategy : c.strategy ≠ .imageFallback)
    (h : elementRules c asset? = .ok ds) :
    ∃ layout fills border' shadows opacity' corners typography,
      layoutRules c.element.layout = .ok layout ∧ fillRules c asset? = .ok fills ∧
        border c.element.style.strokes = .ok border' ∧
        boxShadow c.element.style.effects c.element.style.strokes = .ok shadows ∧
        opacity c.element.style.opacity = .ok opacity' ∧
        cornerRadius c.element.style.cornerRadius = .ok corners ∧
        liveTextRules c = .ok typography ∧
        ds = layout.flatten ++ fills ++ border' ++ shadows ++ opacity' ++ corners ++ typography := by
  obtain ⟨layout, hlayout, h⟩ := bind_eq_ok.mp h
  rw [if_neg hstrategy] at h
  obtain ⟨fills, hfills, h⟩ := bind_eq_ok.mp h
  obtain ⟨border', hborder, h⟩ := bind_eq_ok.mp h
  obtain ⟨shadows, hshadows, h⟩ := bind_eq_ok.mp h
  obtain ⟨opacity', hopacity, h⟩ := bind_eq_ok.mp h
  obtain ⟨corners, hcorners, h⟩ := bind_eq_ok.mp h
  obtain ⟨typography, htypography, h⟩ := bind_eq_ok.mp h
  exact ⟨layout, fills, border', shadows, opacity', corners, typography, hlayout, hfills, hborder,
    hshadows, hopacity, hcorners, htypography, (pure_eq_ok.mp h).symm⟩

theorem elementRules_eq_ok {c : Classified} {asset? : Option ImageAsset} {ds : List Declaration}
    (h : elementRules c asset? = .ok ds) :
    ∃ layout style, layoutRules c.element.layout = .ok layout ∧ ds = layout.flatten ++ style ∧
      ∀ d ∈ style, StyleDeclaration asset? d := by
  by_cases hstrategy : c.strategy = .imageFallback
  · obtain ⟨layout, hlayout, h⟩ := bind_eq_ok.mp h
    rw [if_pos hstrategy] at h
    refine ⟨layout, [], hlayout, ?_, fun d hd ↦ absurd hd List.not_mem_nil⟩
    rw [← pure_eq_ok.mp h, List.append_nil]
  · obtain ⟨layout, fills, border, shadows, opacity, corners, typography, hlayout, hfills, hborder,
      hshadows, hopacity, hcorners, htypography, rfl⟩ := elementRules_eq_parts hstrategy h
    refine ⟨layout, fills ++ border ++ shadows ++ opacity ++ corners ++ typography, hlayout, ?_, ?_⟩
    · simp only [List.append_assoc]
    · intro d hd
      simp only [List.mem_append] at hd
      rcases hd with ((((hd | hd) | hd) | hd) | hd) | hd
      · exact .ofFill hfills d hd
      · exact .ofDeclares (declares_border hborder) (by decide) d hd
      · exact .ofDeclares (declares_boxShadow hshadows) (by decide) d hd
      · exact .ofDeclares (declares_opacity hopacity) (by decide) d hd
      · exact .ofDeclares (declares_cornerRadius hcorners) (by decide) d hd
      · exact .ofLiveText htypography d hd

theorem block?_eq_none {selector : String} {ds : List Declaration} (h : ds.isEmpty = true) :
    block? selector ds = none := if_pos h

theorem block?_eq_some {selector : String} {ds : List Declaration} (h : ds.isEmpty = false) :
    block? selector ds = some ⟨selector, ds⟩ := if_neg (by simp [h])

theorem eq_of_block?_eq_some {selector : String} {ds : List Declaration} {b : Block}
    (h : block? selector ds = some b) : b = ⟨selector, ds⟩ := by
  unfold block? at h
  split at h
  · exact nomatch h
  · exact (Option.some.inj h).symm

/-- Every block for a run has the rules of the run. -/
theorem exists_run_of_mem_runBlocks {c : Classified} {blocks : List Block}
    (h : runBlocks c = .ok blocks) {b : Block} (hb : b ∈ blocks) :
    c.strategy = .text ∧ ∃ run ∈ c.element.runs, ∃ i : Nat,
      b.selector = Naming.spanClass c.id i ∧
      runRules run c.element.style.typography = .ok b.declarations := by
  unfold runBlocks at h
  split at h
  · next hstyled =>
      obtain ⟨options, hoptions, h⟩ := bind_eq_ok.mp h
      rw [← pure_eq_ok.mp h, List.mem_filterMap] at hb
      obtain ⟨option, hoption, rfl⟩ := hb
      obtain ⟨⟨run, i⟩, hrun, hvisit⟩ := exists_of_mem_right hoptions hoption
      obtain ⟨ds, hds, hblock⟩ := bind_eq_ok.mp hvisit
      rw [eq_of_block?_eq_some (pure_eq_ok.mp hblock)]
      exact ⟨hstyled.1, run, List.fst_mem_of_mem_zipIdx hrun, i, rfl, hds⟩
  · rw [← Except.ok.inj h] at hb
    exact absurd hb List.not_mem_nil

end DesignToWeb.Css
