import DesignToWeb.Proofs.Conversion
import DesignToWeb.Proofs.Css.Rules
import DesignToWeb.Proofs.Design.Paints

/-!
# What the rules of an element draw

Strategies are chosen by what a stylesheet can show.  Where the choice falls on
markup, and on text that would be exported if it crossed a boundary, the rules
show everything: one border for a stroke, one shadow for a shadow, and a layer
for every fill that is no image.
-/

namespace DesignToWeb

open Outcome

namespace Css

/-! ## Drawn styles -/

def valuesOf (property : Property) (ds : List Declaration) : List String :=
  (ds.filter (·.property = property)).map Declaration.value

/-- Whether rules draw all of some strokes: nothing for none, and for a single one a border of its
width and colour. -/
inductive DrawsStrokes (ds : List Declaration) : List Stroke → Prop
  | none (h : valuesOf .border ds = []) : DrawsStrokes ds []
  | single {stroke : Stroke} {color : RGBA} {width text : String}
      (hpaint : stroke.paint = .solid (some color)) (hwidth : pixels stroke.width = .ok width)
      (htext : rgba color = .ok text) (h : valuesOf .border ds = [width ++ " solid " ++ text]) :
      DrawsStrokes ds [stroke]

/-- Whether rules draw all of some effects, which are a single shadow or none at all. -/
inductive DrawsEffects (ds : List Declaration) : List Effect → Prop
  | none (h : valuesOf .boxShadow ds = []) : DrawsEffects ds []
  | single {s : Shadow} {text : String} (htext : shadow s = .ok text)
      (h : valuesOf .boxShadow ds = [text]) : DrawsEffects ds [.shadow s]

/-- The fills that a background shows, which are all but images. -/
def layered (fills : List Fill) : List Fill := fills.filter (·.image?.isNone)

/-- Whether rules draw all of some fills: one background with a layer for each, the last fill first,
or none when there is nothing to show. -/
inductive DrawsFills (ds : List Declaration) (fills : List Fill) : Prop
  | none (hfills : layered fills = []) (h : valuesOf .background ds = [])
  | layers {layers : List Layer} (hfills : layered fills ≠ [])
      (hlayers : List.Forall₂ (fun fill layer ↦ fillLayer fill = .ok (some layer))
        (layered fills).reverse layers)
      (h : valuesOf .background ds = [",".intercalate (layers.map Layer.text)])

theorem DrawsStrokes.length_values {ds : List Declaration} {strokes : List Stroke}
    (h : DrawsStrokes ds strokes) : (valuesOf .border ds).length = strokes.length := by
  cases h with
  | none h => rw [h]; rfl
  | single _ _ _ h => rw [h]; rfl

theorem DrawsEffects.length_values {ds : List Declaration} {effects : List Effect}
    (h : DrawsEffects ds effects) : (valuesOf .boxShadow ds).length = effects.length := by
  cases h with
  | none h => rw [h]; rfl
  | single _ h => rw [h]; rfl

/-! ## Values by property -/

theorem valuesOf_append (property : Property) (ds ds' : List Declaration) :
    valuesOf property (ds ++ ds') = valuesOf property ds ++ valuesOf property ds' := by
  rw [valuesOf, List.filter_append, List.map_append]
  rfl

theorem valuesOf_eq_nil {property : Property} {ds : List Declaration}
    (h : ∀ d ∈ ds, d.property ≠ property) : valuesOf property ds = [] := by
  rw [valuesOf, List.map_eq_nil_iff, List.filter_eq_nil_iff]
  intro d hd
  simpa using h d hd

/-- Properties that rules for the paint of an element declare. -/
def paintProperties : List Property := [.background, .backgroundImage, .color] ++ placing

theorem property_mem_of_fillRules {c : Classified} {asset? : Option ImageAsset}
    {ds : List Declaration} (h : fillRules c asset? = .ok ds) :
    ∀ d ∈ ds, d.property ∈ paintProperties := by
  unfold fillRules at h
  split at h
  · exact fun d hd ↦ ((declares_textColor h).mono (by decide) d hd).1
  · obtain ⟨layers, hlayers, h⟩ := bind_eq_ok.mp h
    rw [← pure_eq_ok.mp h]
    intro d hd
    rcases List.mem_append.mp hd with hd | hd
    · exact ((declares_background hlayers).mono (by decide) d hd).1
    · rcases mem_imageRules hd with ⟨asset, _, rfl⟩ | ⟨hproperty, _⟩
      · exact .tail _ (.head _)
      · exact List.mem_append_right _ hproperty

theorem property_mem_of_liveTextRules {c : Classified} {ds : List Declaration}
    (h : liveTextRules c = .ok ds) :
    ∀ d ∈ ds, d.property ∈ .fontFamily :: .whiteSpace :: typeProperties := by
  intro d hd
  obtain rfl | ⟨t, all, _, _, hall, rfl⟩ := liveTextRules_eq_ok h
  · exact absurd hd List.not_mem_nil
  · obtain ⟨rest, rfl, hrest⟩ := typographyRules_eq_ok hall
    rcases List.mem_append.mp hd with hd | hd
    · rcases List.mem_cons.mp hd with rfl | hd
      · exact List.mem_cons_self
      · exact List.mem_cons_of_mem _ (List.mem_cons_of_mem _ (hrest d hd).1)
    · rw [List.mem_singleton.mp hd]
      decide

/-- Only the paint of an element gives values to its background, only its strokes to its border and
only its effects to its shadow. -/
theorem exists_parts {c : Classified} {asset? : Option ImageAsset} {ds : List Declaration}
    (hdirection : ∀ box, c.element.layout = .flow box →
      box.direction = .row ∨ box.direction = .column)
    (hstrategy : c.strategy ≠ .imageFallback) (h : elementRules c asset? = .ok ds) :
    ∃ fills border' shadows, fillRules c asset? = .ok fills ∧
      border c.element.style.strokes = .ok border' ∧
      boxShadow c.element.style.effects c.element.style.strokes = .ok shadows ∧
      valuesOf .background ds = valuesOf .background fills ∧
      valuesOf .border ds = valuesOf .border border' ∧
      valuesOf .boxShadow ds = valuesOf .boxShadow shadows := by
  obtain ⟨layout, fills, border', shadows, opacity', corners, typography, hlayout, hfills, hborder,
    hshadows, hopacity, hcorners, htypography, rfl⟩ := elementRules_eq_parts hstrategy h
  -- every part declares properties of its own, and so each of the three is declared by one part
  have layoutNil {p : Property} (hp : p ∉ layoutProperties) : valuesOf p layout.flatten = [] :=
    valuesOf_eq_nil ((declares_layoutRules hdirection hlayout).notMem hp)
  have fillsNil {p : Property} (hp : p ∉ paintProperties) : valuesOf p fills = [] :=
    valuesOf_eq_nil fun d hd ↦ ne_of_mem_of_not_mem (property_mem_of_fillRules hfills d hd) hp
  have borderNil {p : Property} (hp : p ∉ [Property.border]) : valuesOf p border' = [] :=
    valuesOf_eq_nil ((declares_border hborder).notMem hp)
  have shadowsNil {p : Property} (hp : p ∉ [Property.boxShadow]) : valuesOf p shadows = [] :=
    valuesOf_eq_nil ((declares_boxShadow hshadows).notMem hp)
  have opacityNil {p : Property} (hp : p ∉ [Property.opacity]) : valuesOf p opacity' = [] :=
    valuesOf_eq_nil ((declares_opacity hopacity).notMem hp)
  have cornersNil {p : Property} (hp : p ∉ [Property.borderRadius]) : valuesOf p corners = [] :=
    valuesOf_eq_nil ((declares_cornerRadius hcorners).notMem hp)
  have typographyNil {p : Property} (hp : p ∉ .fontFamily :: .whiteSpace :: typeProperties) :
      valuesOf p typography = [] :=
    valuesOf_eq_nil fun d hd ↦
      ne_of_mem_of_not_mem (property_mem_of_liveTextRules htypography d hd) hp
  refine ⟨fills, border', shadows, hfills, hborder, hshadows, ?_, ?_, ?_⟩
  · simp only [valuesOf_append]
    rw [layoutNil (by decide), borderNil (by decide), shadowsNil (by decide),
      opacityNil (by decide), cornersNil (by decide), typographyNil (by decide)]
    simp
  · simp only [valuesOf_append]
    rw [layoutNil (by decide), fillsNil (by decide), shadowsNil (by decide),
      opacityNil (by decide), cornersNil (by decide), typographyNil (by decide)]
    simp
  · simp only [valuesOf_append]
    rw [layoutNil (by decide), fillsNil (by decide), borderNil (by decide),
      opacityNil (by decide), cornersNil (by decide), typographyNil (by decide)]
    simp

/-! ## Strokes, shadows and layers -/

theorem drawsStrokes_nil {ds border' : List Declaration} (h : border [] = .ok border')
    (hvalues : valuesOf .border ds = valuesOf .border border') : DrawsStrokes ds [] := by
  rw [← Except.ok.inj h] at hvalues
  exact .none hvalues

/-- A solid line on the outline is drawn as a border, and leaves no ring among the shadows. -/
theorem drawsStrokes_singleton {ds border' : List Declaration} {stroke : Stroke} {color : RGBA}
    (hpaint : stroke.paint = .solid (some color)) (halign : stroke.align = .center)
    (hdashes : stroke.dashes = []) (h : border [stroke] = .ok border')
    (hvalues : valuesOf .border ds = valuesOf .border border') :
    DrawsStrokes ds [stroke] ∧ ring? [stroke] = .ok none := by
  have hdrawn : drawnStroke? [stroke] = some (stroke, color) := by
    simp [drawnStroke?, hpaint, hdashes]
  constructor
  · unfold border at h
    simp only [hdrawn, halign, if_true] at h
    obtain ⟨width, hwidth, h⟩ := bind_eq_ok.mp h
    obtain ⟨text, htext, h⟩ := bind_eq_ok.mp h
    rw [← pure_eq_ok.mp h] at hvalues
    exact .single hpaint hwidth htext hvalues
  · unfold ring?
    simp only [hdrawn, halign, ringStart?]

theorem eq_nil_or_singleton_of_effects {effects : List Effect}
    (hblur : effects.any Effect.isBlur = false)
    (hsingle : (effects.filterMap Effect.shadow?).length ≤ 1) :
    effects = [] ∨ ∃ s, effects = [.shadow s] := by
  match effects with
  | [] => exact Or.inl rfl
  | [.shadow s] => exact Or.inr ⟨s, rfl⟩
  | .blur _ _ :: _ => exact nomatch hblur
  | .shadow _ :: .blur _ _ :: _ => exact nomatch hblur
  | .shadow _ :: .shadow _ :: _ => simp [Effect.shadow?] at hsingle

/-- Without a ring the shadows of a box are those of its effects. -/
theorem drawsEffects_of_boxShadow {ds shadows : List Declaration} {effects : List Effect}
    {strokes : List Stroke} (hring : ring? strokes = .ok none)
    (hblur : effects.any Effect.isBlur = false)
    (hsingle : (effects.filterMap Effect.shadow?).length ≤ 1)
    (h : boxShadow effects strokes = .ok shadows)
    (hvalues : valuesOf .boxShadow ds = valuesOf .boxShadow shadows) :
    DrawsEffects ds effects := by
  obtain ⟨ring, hring', h⟩ := bind_eq_ok.mp h
  rw [hring] at hring'
  rw [← Except.ok.inj hring'] at h
  obtain ⟨texts, htexts, h⟩ := bind_eq_ok.mp h
  rw [← pure_eq_ok.mp h] at hvalues
  have htexts := mapM_eq_ok.mp htexts
  rcases eq_nil_or_singleton_of_effects hblur hsingle with rfl | ⟨s, rfl⟩
  · rw [List.forall₂_nil_left_iff.mp htexts] at hvalues
    exact .none hvalues
  · obtain ⟨text, rest, htext, hrest, rfl⟩ := List.forall₂_cons_left_iff.mp htexts
    rw [List.forall₂_nil_left_iff.mp hrest] at hvalues
    exact .single htext hvalues

theorem isNone_image?_of_fillLayer {fill : Fill} {layer? : Option Layer}
    (h : fillLayer fill = .ok layer?) : fill.image?.isNone = layer?.isSome := by
  obtain ⟨image, rfl, rfl⟩ | ⟨layer, rfl, hlayer⟩ := fillLayer_eq_ok h
  · rfl
  · cases hlayer <;> rfl

theorem forall₂_layered {fills : List Fill} {layers? : List (Option Layer)}
    (h : List.Forall₂ (fun fill layer? ↦ fillLayer fill = .ok layer?) fills layers?) :
    List.Forall₂ (fun fill layer ↦ fillLayer fill = .ok (some layer)) (layered fills)
      (layers?.filterMap id) := by
  induction h with
  | nil => exact .nil
  | @cons fill layer? fills layers? hfill _ ih =>
      have hlayer := isNone_image?_of_fillLayer hfill
      cases layer? with
      | none =>
          rw [layered, List.filter_cons_of_neg (by simp [hlayer])]
          exact ih
      | some layer =>
          rw [layered, List.filter_cons_of_pos (by simp [hlayer])]
          exact .cons hfill ih

/-- A background has a layer for every fill but the images, the last fill first. -/
theorem background_eq_ok {fills : List Fill} {ds : List Declaration}
    (h : background fills = .ok ds) :
    ∃ layers, List.Forall₂ (fun fill layer ↦ fillLayer fill = .ok (some layer))
        (layered fills).reverse layers ∧
      ds = if layers.isEmpty then []
        else [⟨.background, ",".intercalate (layers.map Layer.text)⟩] := by
  obtain ⟨layers, hlayers, h⟩ := bind_eq_ok.mp h
  obtain ⟨layers?, hlayers?, hlayers⟩ := bind_eq_ok.mp hlayers
  have hforall := forall₂_layered (mapM_eq_ok.mp hlayers?)
  rw [pure_eq_ok.mp hlayers, layered, List.filter_reverse] at hforall
  exact ⟨layers, hforall, (pure_eq_ok.mp h).symm⟩

theorem drawsFills_of_background {ds rules : List Declaration} {fills : List Fill}
    (h : background fills = .ok rules)
    (hvalues : valuesOf .background ds = valuesOf .background rules) : DrawsFills ds fills := by
  obtain ⟨layers, hlayers, rfl⟩ := background_eq_ok h
  cases layers with
  | nil =>
      exact .none (List.reverse_eq_nil_iff.mp (List.forall₂_nil_right_iff.mp hlayers)) hvalues
  | cons layer layers =>
      refine .layers ?_ hlayers hvalues
      intro hempty
      rw [hempty] at hlayers
      exact nomatch hlayers

/-- A bitmap stands beside the background and takes no layer of it. -/
theorem drawsFills_of_fillRules {c : Classified} {asset? : Option ImageAsset}
    {ds rules : List Declaration} (hstrategy : c.strategy ≠ .text)
    (h : fillRules c asset? = .ok rules)
    (hvalues : valuesOf .background ds = valuesOf .background rules) :
    DrawsFills ds c.element.style.fills := by
  unfold fillRules at h
  rw [if_neg hstrategy] at h
  obtain ⟨layers, hlayers, h⟩ := bind_eq_ok.mp h
  have himage : valuesOf .background (imageRules asset?) = [] := by
    refine valuesOf_eq_nil fun d hd ↦ ?_
    rcases mem_imageRules hd with ⟨asset, _, rfl⟩ | ⟨hproperty, _⟩
    · exact nofun
    · exact ne_of_mem_of_not_mem hproperty (by decide)
  rw [← pure_eq_ok.mp h, valuesOf_append, himage, List.append_nil] at hvalues
  exact drawsFills_of_background hlayers hvalues

end Css

/-! ## Strategies -/

/-- An element that is markup, or text that would be exported if it crossed a boundary, crosses
none. -/
theorem boundary?_eq_none {policy : Policy} {kind : NodeKind} {style : Style}
    (h : strategyOf policy kind style = .markup ∨
      strategyOf policy kind style = .text ∧ policy.downgradeText = true) :
    style.boundary? policy = none := by
  rw [← Option.not_isSome_iff_eq_none]
  intro hcrosses
  unfold strategyOf at h
  by_cases hkind : kind = .text
  · simp only [hkind, hcrosses, if_true, Bool.true_and] at h
    rcases h with h | ⟨h, hdowngrade⟩
    · split at h <;> exact nomatch h
    · rw [if_pos hdowngrade] at h
      exact nomatch h
  · simp only [hkind, hcrosses, if_true, if_false] at h
    rcases h with h | ⟨h, _⟩ <;> exact nomatch h

theorem boundary?_eq_none_iff {policy : Policy} {style : Style} :
    style.boundary? policy = none ↔ style.isMask = false ∧ style.strokesCross = false ∧
      style.fillsCross policy = false ∧ style.blendCrosses = false ∧
      style.effectsCross = false := by
  unfold Style.boundary?
  cases style.isMask <;> cases style.strokesCross <;> cases style.fillsCross policy <;>
    cases style.blendCrosses <;> cases style.effectsCross <;> simp

theorem strategy_of_mem {policy : Policy} {file : Json} {document : ClassifiedDocument}
    (h : classifyDocument policy file = .ok document) {c : Classified}
    (hc : c ∈ document.scene.elements) :
    c.strategy = strategyOf policy c.element.kind c.element.style := by
  obtain ⟨read, _, h⟩ := bind_eq_ok.mp h
  rw [← pure_eq_ok.mp h, ClassifiedScene.elements, Scene.classify,
    Tree.preorderForest_mapForest] at hc
  obtain ⟨element, _, rfl⟩ := List.mem_map.mp hc
  rfl

/-- The strokes of a style that is read from a node and crosses no boundary: none, or a single solid
line on the outline, whose colour is known. -/
theorem strokes_of_readStyle {node : Attributes} {kind : NodeKind} {style : Style}
    {warnings : List String} (h : Design.readStyle node kind = .ok (style, warnings))
    (hcross : style.strokesCross = false) :
    style.strokes = [] ∨ ∃ stroke color, style.strokes = [stroke] ∧
      stroke.paint = .solid (some color) ∧ stroke.align = .center ∧ stroke.dashes = [] := by
  obtain ⟨_, strokes, _, _, hstrokes, _, _, hstyle, _⟩ := Design.readStyle_eq_ok h
  unfold Style.strokesCross at hcross
  split at hcross
  · next hnone => exact Or.inl hnone
  · next stroke hsingle =>
      have hmem : stroke ∈ strokes.items := by
        rw [← hstyle, hsingle]
        exact List.mem_singleton_self stroke
      have hplain : Style.isPlainStroke stroke = true := by simpa using hcross
      obtain ⟨entry, _, hread⟩ := Design.exists_drawn_of_mem hstrokes hmem
      unfold Style.isPlainStroke at hplain
      -- a plain stroke is solid, and what is read as solid is read with its colour
      rcases Design.readStroke_eq_ok hread with
        ⟨_, color, hdrawn, hpaint⟩ | ⟨_, _, _, hdrawn, hpaint⟩ | ⟨_, hdrawn⟩
      · rw [← Design.Reading.drawn.inj hdrawn] at hpaint
        rw [hpaint] at hplain
        simp only [Bool.and_eq_true, beq_iff_eq, List.isEmpty_iff] at hplain
        exact Or.inr ⟨stroke, color, hsingle, hpaint, hplain.1, hplain.2⟩
      · rw [← Design.Reading.drawn.inj hdrawn] at hpaint
        rw [hpaint] at hplain
        exact nomatch hplain
      · exact nomatch hdrawn
  · exact nomatch hcross

/-- The rules of an element that counts as reproducible draw all of its strokes and effects, and for
markup all of its fills. -/
theorem elementRules_draw_style {policy : Policy} {file : Json} {document : ClassifiedDocument}
    {title : String} {assets : Css.ImageAssets} {emission : Emission}
    (hdocument : classifyDocument policy file = .ok document)
    (hemit : emit title assets document = .ok emission) :
    ∀ c ∈ document.scene.elements,
      c.strategy = .markup ∨ c.strategy = .text ∧ policy.downgradeText = true →
      ∃ rules, Css.elementRules c (assets.lookup c.id) = .ok rules ∧
        Css.DrawsStrokes rules c.element.style.strokes ∧
        Css.DrawsEffects rules c.element.style.effects ∧
        (c.strategy = .markup → Css.DrawsFills rules c.element.style.fills) := by
  intro c hc hreproducible
  obtain ⟨rules, hrules⟩ := exists_elementRules_of_emit hemit hc
  obtain ⟨node, box?, inFlow, warnings, hread⟩ := exists_readElement_of_mem hdocument hc
  have hstyle := (Design.readElement?_eq_some hread).style
  have hstrategy : c.strategy ≠ .imageFallback := by
    rcases hreproducible with h | ⟨h, _⟩ <;> rw [h] <;> exact nofun
  rw [strategy_of_mem hdocument hc] at hreproducible
  obtain ⟨_, hstrokes, _, _, heffects⟩ :=
    boundary?_eq_none_iff.mp (boundary?_eq_none hreproducible)
  obtain ⟨fills, border, shadows, hfills, hborder, hshadows, hbackground, hborders, hshadow⟩ :=
    Css.exists_parts (fun _ ↦ direction_of_mem hdocument hc) hstrategy hrules
  -- strokes that cross no boundary are drawn as a border, and leave no ring among the shadows
  have hdrawn : Css.DrawsStrokes rules c.element.style.strokes ∧
      Css.ring? c.element.style.strokes = .ok none := by
    rcases strokes_of_readStyle hstyle hstrokes with
      hnone | ⟨stroke, color, hsingle, hpaint, halign, hdashes⟩
    · rw [hnone] at hborder ⊢
      exact ⟨Css.drawsStrokes_nil hborder hborders, rfl⟩
    · rw [hsingle] at hborder ⊢
      exact Css.drawsStrokes_singleton hpaint halign hdashes hborder hborders
  unfold Style.effectsCross at heffects
  simp only [Bool.or_eq_false_iff, decide_eq_false_iff_not, Nat.not_lt] at heffects
  refine ⟨rules, hrules, hdrawn.1, ?_, fun hmarkup ↦ ?_⟩
  · exact Css.drawsEffects_of_boxShadow hdrawn.2 heffects.2 heffects.1 hshadows hshadow
  · exact Css.drawsFills_of_fillRules (by rw [hmarkup]; exact nofun) hfills hbackground

/-- A card with a border and a shadow, and an image between two fills. -/
def borderedCard : Json :=
  .obj [("children", .arr [.obj [("id", .str "0:1"), ("children", .arr [
    .obj [("id", .str "1:1"), ("type", .str "FRAME"), ("strokeWeight", .int 2),
      ("strokes", .arr [.obj [("type", .str "SOLID"), ("color", .obj [("r", .int 1)])]]),
      ("effects", .arr [.obj [("type", .str "INNER_SHADOW"), ("radius", .int 4)]]),
      ("fills", .arr [.obj [("type", .str "SOLID")],
        .obj [("type", .str "IMAGE"), ("imageRef", .str "a")],
        .obj [("type", .str "GRADIENT_RADIAL")]])]])]])]

theorem elementRules_draw_card : ∃ document emission,
    classifyDocument {} borderedCard = .ok document ∧
      emit "Generated" [] document = .ok emission ∧
      ∃ c ∈ document.scene.elements, c.strategy = .markup ∧
        ∃ rules, Css.elementRules c none = .ok rules ∧
          (Css.valuesOf .border rules).length = 1 ∧
          (Css.valuesOf .boxShadow rules).length = 1 ∧
          (Css.layered c.element.style.fills).length = 2 ∧
          Css.DrawsFills rules c.element.style.fills := by
  obtain ⟨document, emission, hdocument, hemit, c, hc, hcard⟩ :
      ∃ document emission, classifyDocument {} borderedCard = .ok document ∧
        emit "Generated" [] document = .ok emission ∧
        ∃ c ∈ document.scene.elements, (c.strategy = .markup &&
          c.element.style.strokes.length = 1 && c.element.style.effects.length = 1 &&
          (Css.layered c.element.style.fills).length = 2) = true :=
    exists_element_of_conversion (by decide +kernel)
  simp only [Bool.and_eq_true, decide_eq_true_eq] at hcard
  obtain ⟨⟨⟨hmarkup, hstrokes⟩, heffects⟩, hfills⟩ := hcard
  obtain ⟨rules, hrules, hdrawn, hshaded, hpainted⟩ :=
    elementRules_draw_style hdocument hemit c hc (Or.inl hmarkup)
  exact ⟨document, emission, hdocument, hemit, c, hc, hmarkup, rules, hrules,
    hdrawn.length_values.trans hstrokes, hshaded.length_values.trans heffects, hfills,
    hpainted hmarkup⟩

end DesignToWeb
