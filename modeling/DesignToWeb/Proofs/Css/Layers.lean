import DesignToWeb.Proofs.Drawing

/-!
# Layers of a background

A stylesheet separates the layers of a background by commas, and a browser takes a
plain colour in the last layer only: with a colour above another layer it drops the
whole declaration.  The layers are read off the value of the declaration, by the
commas that stand outside of all brackets.
-/

namespace DesignToWeb.Css

open Outcome
open Text (MadeOf)

/-! ## Parts between commas -/

/-- How many brackets are open after a character. -/
def depthAfter (depth : Nat) (c : Char) : Nat :=
  if c = '(' then depth + 1 else if c = ')' then depth - 1 else depth

/-- The parts between the commas outside of all brackets, from a place on where some are open. -/
def partsFrom : Nat → List Char → List (List Char)
  | _, [] => [[]]
  | depth, c :: cs =>
    if depth = 0 ∧ c = ',' then [] :: partsFrom 0 cs
    else (partsFrom (depthAfter depth c) cs).modifyHead (c :: ·)

/-- The layers in the value of a background. -/
def layersOf (value : String) : List String := (partsFrom 0 value.toList).map String.ofList

/-- How the images among the layers begin. -/
def gradientStarts : List String := ["linear-gradient(", "radial-gradient(", "conic-gradient("]

def isImageLayer (layer : String) : Bool :=
  gradientStarts.any (·.toList.isPrefixOf layer.toList)

/-- Whether all layers but the last are images, so that a browser takes the declaration. -/
def colorsComeLast (value : String) : Bool := (layersOf value).dropLast.all isImageLayer

/-- How many brackets are open after some characters, unless a comma among them ends the part. -/
def depthPast? : Nat → List Char → Option Nat
  | depth, [] => some depth
  | depth, c :: cs => if depth = 0 ∧ c = ',' then none else depthPast? (depthAfter depth c) cs

theorem depthPast?_append {depth depth' : Nat} {cs : List Char}
    (h : depthPast? depth cs = some depth') (ds : List Char) :
    depthPast? depth (cs ++ ds) = depthPast? depth' ds := by
  induction cs generalizing depth with
  | nil => rw [List.nil_append, Option.some.inj h]
  | cons c cs ih =>
      unfold depthPast? at h
      split at h
      · exact nomatch h
      · next hcomma =>
          rw [List.cons_append, depthPast?, if_neg hcomma]
          exact ih h

theorem partsFrom_append {depth depth' : Nat} {cs : List Char}
    (h : depthPast? depth cs = some depth') (ds : List Char) :
    partsFrom depth (cs ++ ds) = (partsFrom depth' ds).modifyHead (cs ++ ·) := by
  induction cs generalizing depth with
  | nil =>
      rw [Option.some.inj h]
      exact (congrFun List.modifyHead_id _).symm
  | cons c cs ih =>
      unfold depthPast? at h
      split at h
      · exact nomatch h
      · next hcomma =>
          rw [List.cons_append, partsFrom, if_neg hcomma, ih h, List.modifyHead_modifyHead]
          rfl

/-- Whether a text belongs to one part as a whole and leads from one number of open brackets to
another. -/
def Leads (depth depth' : Nat) (s : String) : Prop := depthPast? depth s.toList = some depth'

def isFlat (c : Char) : Bool := c != '(' && c != ')'

theorem depthAfter_of_isFlat {c : Char} (h : isFlat c = true) (depth : Nat) :
    depthAfter depth c = depth := by
  simp only [isFlat, Bool.and_eq_true, bne_iff_ne] at h
  rw [depthAfter, if_neg h.1, if_neg h.2]

namespace Leads

variable {depth depth' depth'' : Nat} {s t : String}

theorem append (hs : Leads depth depth' s) (ht : Leads depth' depth'' t) :
    Leads depth depth'' (s ++ t) := by
  rw [Leads, String.toList_append, depthPast?_append hs]
  exact ht

/-- Text without brackets stays in its part: inside brackets always, outside of them if it has no
commas. -/
theorem flat (h : MadeOf isFlat s) (hcomma : depth ≠ 0 ∨ ',' ∉ s.toList) : Leads depth depth s := by
  rw [MadeOf] at h
  rw [Leads]
  generalize s.toList = cs at h hcomma
  induction cs with
  | nil => rfl
  | cons c cs ih =>
      have hnone : ¬ (depth = 0 ∧ c = ',') := by
        rintro ⟨hzero, rfl⟩
        exact hcomma.elim (· hzero) (· List.mem_cons_self)
      rw [depthPast?, if_neg hnone, depthAfter_of_isFlat (h c List.mem_cons_self)]
      refine ih (fun d hd ↦ h d (List.mem_cons_of_mem c hd)) ?_
      exact hcomma.imp_right fun hcs hmem ↦ hcs (List.mem_cons_of_mem c hmem)

theorem inside (h : MadeOf isFlat s) : Leads (depth + 1) (depth + 1) s :=
  flat h (Or.inl (Nat.succ_ne_zero depth))

theorem intercalate {texts : List String} (hs : Leads depth depth s)
    (h : ∀ text ∈ texts, Leads depth depth text) : Leads depth depth (s.intercalate texts) := by
  induction texts with
  | nil => rfl
  | cons text texts ih =>
      have hrest := ih fun t ht ↦ h t (List.mem_cons_of_mem text ht)
      cases texts with
      | nil =>
          rw [String.intercalate_singleton]
          exact h text List.mem_cons_self
      | cons next texts =>
          rw [String.intercalate_cons_cons]
          exact ((h text List.mem_cons_self).append hs).append hrest

end Leads

/-- Texts that each belong to one part are the parts of what they are joined to. -/
theorem layersOf_intercalate {texts : List String} (hne : texts ≠ [])
    (h : ∀ text ∈ texts, Leads 0 0 text) : layersOf (",".intercalate texts) = texts := by
  have hparts : partsFrom 0 (",".intercalate texts).toList = texts.map String.toList := by
    induction texts with
    | nil => exact absurd rfl hne
    | cons text texts ih =>
        -- the first text is one part, so the next one begins behind the comma after it
        have htext := partsFrom_append (h text List.mem_cons_self)
        cases texts with
        | nil =>
            have hall := htext []
            rw [List.append_nil] at hall
            rw [String.intercalate_singleton, hall]
            simp [partsFrom]
        | cons next texts =>
            have hrest := ih (List.cons_ne_nil next texts)
              fun t ht ↦ h t (List.mem_cons_of_mem text ht)
            have hjoined : (",".intercalate (text :: next :: texts)).toList =
                text.toList ++ ',' :: (",".intercalate (next :: texts)).toList := by
              rw [String.intercalate_cons_cons]
              simp
            rw [hjoined, htext, partsFrom, if_pos ⟨rfl, rfl⟩, hrest]
            simp
  rw [layersOf, hparts, List.map_map]
  exact (List.map_congr_left fun text _ ↦ String.ofList_toList).trans (List.map_id texts)

/-! ## The texts of layers -/

theorem isFlat_of_isNumeralChar {c : Char} (h : isNumeralChar c = true) : isFlat c = true := by
  rw [isFlat, Bool.and_eq_true, bne_iff_ne, bne_iff_ne]
  constructor
  · rintro rfl
    exact Bool.noConfusion h
  · rintro rfl
    exact Bool.noConfusion h

theorem leads_numeral {s : String} (h : MadeOf isNumeralChar s) (depth : Nat) :
    Leads depth depth s :=
  .flat (h.mono fun _ ↦ isFlat_of_isNumeralChar) (Or.inr (h.notMem rfl))

theorem leads_rgba {color : RGBA} {s : String} (h : rgba color = .ok s) (depth : Nat) :
    Leads depth depth s := by
  obtain ⟨red, green, blue, alpha, _, _, _, halpha, rfl⟩ := rgba_eq_ok h
  have hopening : Leads depth (depth + 1) "rgba(" := by simp [Leads, depthPast?, depthAfter]
  have hclosing : Leads (depth + 1) depth ")" := by simp [Leads, depthPast?, depthAfter]
  refine (hopening.append (.intercalate (.inside (by decide)) ?_)).append hclosing
  simp only [List.mem_cons, List.not_mem_nil, or_false]
  rintro part (rfl | rfl | rfl | rfl)
  · exact leads_numeral (madeOf_toString_int red) _
  · exact leads_numeral (madeOf_toString_int green) _
  · exact leads_numeral (madeOf_toString_int blue) _
  · exact leads_numeral (numeral_number halpha) _

/-- The commas between the stops of a gradient stand inside of its brackets. -/
theorem leads_gradientStops {stops : List ColorStop} {s : String} (h : gradientStops stops = .ok s) :
    Leads 1 1 s := by
  obtain ⟨texts, htexts, h⟩ := bind_eq_ok.mp h
  rw [← pure_eq_ok.mp h]
  refine .intercalate (.inside (by decide)) fun text htext ↦ ?_
  obtain ⟨stop, _, hstop⟩ := exists_of_mem_right htexts htext
  obtain ⟨color, hcolor, hstop⟩ := bind_eq_ok.mp hstop
  obtain ⟨position, hposition, hstop⟩ := bind_eq_ok.mp hstop
  rw [← pure_eq_ok.mp hstop]
  exact (((leads_rgba hcolor 1).append (.inside (by decide))).append
    (leads_numeral (numeral_number hposition) 1)).append (.inside (by decide))

/-- The layer of a fill is one part of the background. -/
theorem leads_fillLayer {fill : Fill} {layer : Layer} (h : fillLayer fill = .ok (some layer)) :
    Leads 0 0 layer.text := by
  have hclosing : Leads 1 0 ")" := rfl
  cases fillLayer_eq_some h with
  | solid htext => exact leads_rgba htext 0
  | linear hangle htext =>
      have hopening : Leads 0 1 "linear-gradient(" := rfl
      exact (((hopening.append (leads_numeral (numeral_number hangle) 1)).append
        (.inside (by decide))).append (leads_gradientStops htext)).append hclosing
  | radial htext =>
      have hopening : Leads 0 1 "radial-gradient(circle at center, " := rfl
      exact (hopening.append (leads_gradientStops htext)).append hclosing
  | conic hangle htext =>
      have hopening : Leads 0 1 "conic-gradient(from " := rfl
      exact (((hopening.append (leads_numeral (numeral_number hangle) 1)).append
        (.inside (by decide))).append (leads_gradientStops htext)).append hclosing

theorem isImageLayer_append {s : String} (h : isImageLayer s = true) (t : String) :
    isImageLayer (s ++ t) = true := by
  obtain ⟨start, hstart, hprefix⟩ := List.any_eq_true.mp h
  refine List.any_eq_true.mpr ⟨start, hstart, ?_⟩
  rw [String.toList_append]
  exact List.isPrefixOf_iff_prefix.mpr
    ((List.isPrefixOf_iff_prefix.mp hprefix).trans (List.prefix_append _ _))

theorem isImageLayer_rgba {color : RGBA} {s : String} (h : rgba color = .ok s) :
    isImageLayer s = false := by
  obtain ⟨red, green, blue, alpha, _, _, _, _, rfl⟩ := rgba_eq_ok h
  simp [isImageLayer, gradientStarts, List.isPrefixOf]

/-- The layer of a fill is an image exactly if the fill is a gradient. -/
theorem isImageLayer_fillLayer {fill : Fill} {layer : Layer}
    (h : fillLayer fill = .ok (some layer)) : isImageLayer layer.text = fill.isGradient := by
  have hstart {s : String} (hs : isImageLayer s = true) (t u : String) :
      isImageLayer (s ++ t ++ u) = true := isImageLayer_append (isImageLayer_append hs t) u
  cases fillLayer_eq_some h with
  | solid htext => exact isImageLayer_rgba htext
  | linear _ _ => exact hstart (hstart (by decide) _ "deg, ") _ ")"
  | radial _ => exact hstart (by decide) _ ")"
  | conic _ _ => exact hstart (hstart (by decide) _ "deg at 50% 50%, ") _ ")"

/-! ## Backgrounds -/

theorem images_of_layers {fills : List Fill} {layers : List Layer}
    (h : List.Forall₂ (fun fill layer ↦ fillLayer fill = .ok (some layer)) fills layers) :
    (∀ text ∈ layers.map Layer.text, Leads 0 0 text) ∧
      (layers.map Layer.text).map isImageLayer = fills.map Fill.isGradient := by
  induction h with
  | nil => exact ⟨fun _ h ↦ absurd h List.not_mem_nil, rfl⟩
  | cons hlayer _ ih =>
      refine ⟨List.forall_mem_cons.mpr ⟨leads_fillLayer hlayer, ih.1⟩, ?_⟩
      rw [List.map_cons, List.map_cons, List.map_cons, isImageLayer_fillLayer hlayer, ih.2]

/-- The layers of a background are images where its fills are gradients, with the last fill in the
first layer. -/
theorem images_of_background {fills : List Fill} {ds : List Declaration}
    (h : background fills = .ok ds) :
    ∀ d ∈ ds, (layersOf d.value).map isImageLayer = (layered fills).reverse.map Fill.isGradient := by
  obtain ⟨layers, hlayers, rfl⟩ := background_eq_ok h
  obtain ⟨hleads, himages⟩ := images_of_layers hlayers
  intro d hd
  cases layers with
  | nil => exact absurd hd List.not_mem_nil
  | cons layer layers =>
      have hparts := layersOf_intercalate (List.cons_ne_nil _ _) hleads
      rw [List.mem_singleton.mp hd]
      exact (congrArg (List.map isImageLayer) hparts).trans himages

/-- A background without a declaration has no fills to show. -/
theorem layered_eq_nil_of_background {fills : List Fill} (h : background fills = .ok []) :
    layered fills = [] := by
  obtain ⟨layers, hlayers, hds⟩ := background_eq_ok h
  cases layers with
  | nil => exact List.reverse_eq_nil_iff.mp (List.forall₂_nil_right_iff.mp hlayers)
  | cons layer layers => exact nomatch hds

theorem colorsComeLast_eq {fills : List Fill} {value : String}
    (h : (layersOf value).map isImageLayer = (layered fills).reverse.map Fill.isGradient) :
    colorsComeLast value = (layered fills).tail.all Fill.isGradient := by
  have hall : ∀ (layers : List String), layers.all isImageLayer = (layers.map isImageLayer).all id :=
    fun layers ↦ by rw [List.all_map]; rfl
  rw [colorsComeLast, hall, List.map_dropLast, h, ← List.map_dropLast, List.dropLast_reverse,
    List.all_map, List.all_reverse]
  rfl

/-- The declaration of a background has a layer for every fill but the images, and a browser takes
it exactly if no plain colour lies above another of these fills. -/
theorem colorsComeLast_iff {fills : List Fill} {ds : List Declaration}
    (h : background fills = .ok ds) :
    (∀ d ∈ ds, (layersOf d.value).map isImageLayer =
        (layered fills).reverse.map Fill.isGradient) ∧
      ((∀ d ∈ ds, colorsComeLast d.value = true) ↔
        ∀ fill ∈ (layered fills).tail, fill.isGradient = true) := by
  have himages := images_of_background h
  refine ⟨himages, ?_⟩
  cases ds with
  | nil =>
      rw [layered_eq_nil_of_background h]
      exact ⟨fun _ _ hfill ↦ absurd hfill List.not_mem_nil,
        fun _ _ hd ↦ absurd hd List.not_mem_nil⟩
  | cons d ds =>
      constructor
      · intro hlast
        have hd := hlast d List.mem_cons_self
        rw [colorsComeLast_eq (himages d List.mem_cons_self)] at hd
        exact List.all_eq_true.mp hd
      · intro hfills d' hd'
        rw [colorsComeLast_eq (himages d' hd')]
        exact List.all_eq_true.mpr hfills

/-- A dawn over a plain colour, with an image between them. -/
def dawn : List Fill :=
  [.solid ⟨1, 1, 1, 1⟩, .image ⟨"clouds", .fill⟩, .linear [⟨0, ⟨1, 0, 0, 1⟩⟩, ⟨1, ⟨1, 1, 0, 1⟩⟩] 90]

/-- The colour is the last layer of the two. -/
theorem colorsComeLast_dawn : ∃ d, background dawn = .ok [d] ∧ (layersOf d.value).length = 2 ∧
    colorsComeLast d.value = true := by
  have hreturns : ((background dawn).toOption.map List.length) = some 1 := by decide +kernel
  cases hds : background dawn with
  | error fault =>
      rw [hds] at hreturns
      exact nomatch hreturns
  | ok ds =>
      obtain ⟨hlayers, hlast⟩ := colorsComeLast_iff hds
      rw [hds] at hreturns
      obtain ⟨d, rfl⟩ := List.length_eq_one_iff.mp (Option.some.inj hreturns)
      have hlength := congrArg List.length (hlayers d List.mem_cons_self)
      rw [List.length_map, List.length_map, List.length_reverse] at hlength
      exact ⟨d, rfl, hlength, hlast.mpr (by decide) d List.mem_cons_self⟩

/-- A half transparent red over a gradient from black to white. -/
def tinted : List Fill :=
  [.radial [⟨0, ⟨0, 0, 0, 1⟩⟩, ⟨1, ⟨1, 1, 1, 1⟩⟩], .solid ⟨1, 0, 0, .ofDecimal false 5 (-1)⟩]

/-- The red is the first of two layers, so a browser drops the background. -/
theorem not_colorsComeLast_tinted : ∃ d, background tinted = .ok [d] ∧
    d.value = "rgba(255,0,0,0.5),radial-gradient(circle at center, " ++
      "rgba(0,0,0,1) 0%, rgba(255,255,255,1) 100%)" ∧
    layersOf d.value = ["rgba(255,0,0,0.5)",
      "radial-gradient(circle at center, rgba(0,0,0,1) 0%, rgba(255,255,255,1) 100%)"] ∧
    colorsComeLast d.value = false := by
  refine ⟨⟨.background, "rgba(255,0,0,0.5),radial-gradient(circle at center, " ++
    "rgba(0,0,0,1) 0%, rgba(255,255,255,1) 100%)"⟩, ?_, rfl, ?_, ?_⟩
  · exact eq_ok_of_isOkWith (by decide +kernel)
  · decide +kernel
  · decide +kernel

end DesignToWeb.Css
