import DesignToWeb.Proofs.Binary64.Minus
import DesignToWeb.Proofs.Binary64.Sign
import DesignToWeb.Proofs.Css.Layers
import DesignToWeb.Proofs.Css.Rules
import DesignToWeb.Proofs.Json.Label
import DesignToWeb.Proofs.Numbers

/-!
# Negative lengths

A gap, a padding, a size, the width of a border, the radius of a corner, the blur of
a shadow, the size of a font and the height of a line may not be negative: a browser
drops a declaration with such a length.  The lengths are read off the values of
the declarations, and they are negative where the numbers that they are written
from lie below zero when they are rounded.
-/

namespace DesignToWeb

/-- The lengths of a type that may not be negative. -/
def Typography.lengths (t : Typography) : List Binary64 := t.fontSize :: t.lineHeight.toList

namespace Css

open Outcome
open Text (MadeOf)

/-- Whether a number is below zero as a stylesheet writes it, to three decimals. -/
def roundsBelowZero (x : Binary64) : Bool := (x.roundPlaces 3).lt 0

/-- A whole number is written without the sign of a zero, and any other is no zero. -/
theorem isNegative_number {x : Binary64} {s : String} (h : number x = .ok s) :
    isNegative s = roundsBelowZero x := by
  obtain ⟨whole, hwhole, h⟩ := bind_eq_ok.mp h
  rw [← pure_eq_ok.mp h, roundsBelowZero, Bool.eq_iff_iff]
  generalize x.roundPlaces 3 = rounded at hwhole ⊢
  cases rounded with
  | infinite _ | nan => exact nomatch hwhole
  | finite negative magnitude =>
      rw [Binary64.finite_lt_zero_iff]
      split
      · next hones =>
          -- a whole number is written as an integer, among which there is no negative zero
          have hunits : magnitude.units = magnitude.units / unitsInOne * unitsInOne :=
            (Nat.div_mul_cancel (Nat.dvd_of_mod_eq_zero (eq_of_beq hones))).symm
          have hzero : magnitude.units = 0 ↔ magnitude.units / unitsInOne = 0 := by
            constructor
            · intro hzero
              rw [hzero, Nat.zero_div]
            · intro hzero
              rw [hunits, hzero, Nat.zero_mul]
          rw [isNegative_toString, decide_eq_true_iff, ← Except.ok.inj hwhole, ne_eq, hzero,
            ← Int.natCast_ediv]
          cases negative with
          | true =>
              have hsign (n : Nat) : -(n : Int) < 0 ↔ n ≠ 0 := by omega
              rw [if_pos rfl, and_iff_right rfl]
              exact hsign _
          | false => exact iff_of_false (Int.not_lt.mpr (Int.natCast_nonneg _)) nofun
      · next hfraction =>
          -- a number with a fraction is not zero, and its text begins with its sign
          have hne : magnitude.units ≠ 0 := by
            intro hzero
            refine hfraction ?_
            rw [Binary64.isWhole, hzero, Nat.zero_mod]
            rfl
          rw [Binary64.isNegative_text, and_iff_left hne]

theorem number_ne_empty {x : Binary64} {s : String} (h : number x = .ok s) : s ≠ "" := by
  obtain ⟨whole, _, h⟩ := bind_eq_ok.mp h
  rw [← pure_eq_ok.mp h]
  split
  · exact Json.toString_int_ne_empty whole
  · exact Binary64.text_ne_empty _

/-! ## Lengths in values -/

def wordsOf (value : String) : List String := (value.toList.splitOn ' ').map String.ofList

theorem wordsOf_word {s : String} (h : ' ' ∉ s.toList) : wordsOf s = [s] := by
  rw [wordsOf, List.splitOn_eq_singleton h, List.map_singleton, String.ofList_toList]

theorem wordsOf_append {s : String} (h : ' ' ∉ s.toList) (t : String) :
    wordsOf (s ++ " " ++ t) = s :: wordsOf t := by
  have hlist : (s ++ " " ++ t).toList = s.toList ++ ' ' :: t.toList := by simp
  rw [wordsOf, hlist, List.splitOn_append_cons_self_of_not_mem h, List.map_cons,
    String.ofList_toList]
  rfl

theorem wordsOf_intercalate {words : List String} (hne : words ≠ [])
    (h : ∀ word ∈ words, ' ' ∉ word.toList) : wordsOf (" ".intercalate words) = words := by
  induction words with
  | nil => exact absurd rfl hne
  | cons word words ih =>
      have hword := h word List.mem_cons_self
      cases words with
      | nil =>
          rw [String.intercalate_singleton]
          exact wordsOf_word hword
      | cons next words =>
          rw [String.intercalate_cons_cons, wordsOf_append hword,
            ih (List.cons_ne_nil next words) fun w hw ↦ h w (List.mem_cons_of_mem word hw)]

/-- The third length of a layer of a shadow, which is its blur. -/
def blurOf? (layer : String) : Option String := ((wordsOf layer).filter (· ≠ "inset"))[2]?

/-- The lengths in a declaration that may not be negative. -/
def Declaration.lengths (d : Declaration) : List String :=
  match d.property with
  | .gap | .width | .height | .fontSize | .lineHeight => [d.value]
  | .padding | .borderRadius => wordsOf d.value
  | .border => (wordsOf d.value).take 1
  | .boxShadow => (layersOf d.value).filterMap blurOf?
  | _ => []

/-- Whether a browser drops a declaration for a negative length. -/
def Declaration.isDropped (d : Declaration) : Bool := d.lengths.any isNegative

/-- Whether declarations have a negative length exactly if one of some numbers is written as one. -/
def Signs (xs : List Binary64) (ds : List Declaration) : Prop :=
  ds.any Declaration.isDropped = xs.any roundsBelowZero

namespace Signs

variable {xs ys : List Binary64} {ds es : List Declaration}

theorem nil : Signs [] [] := rfl

theorem append (hds : Signs xs ds) (hes : Signs ys es) : Signs (xs ++ ys) (ds ++ es) := by
  rw [Signs, List.any_append, List.any_append, hds, hes]

/-- Properties without lengths, or with lengths of either sign. -/
theorem unbounded (h : ∀ d ∈ ds, d.lengths = []) : Signs [] ds := by
  refine List.any_eq_false.mpr fun d hd ↦ ?_
  rw [Declaration.isDropped, h d hd]
  exact nofun

end Signs

def isLengthChar (c : Char) : Bool := isNumeralChar c || c == 'p' || c == 'x'

/-- Whether a text is a length of the sign that a number has when it is rounded. -/
structure IsLengthOf (x : Binary64) (text : String) : Prop where
  sign : isNegative text = roundsBelowZero x
  plain : MadeOf isLengthChar text

theorem pixels_isLengthOf (x : Binary64) : Ensures (IsLengthOf x) (pixels x) := by
  intro text h
  obtain ⟨numeral, hnumeral, h⟩ := bind_eq_ok.mp h
  rw [← pure_eq_ok.mp h]
  have hplain : MadeOf isLengthChar numeral :=
    (numeral_number hnumeral).mono fun c hc ↦ by rw [isLengthChar, hc]; rfl
  refine ⟨?_, hplain.append (by decide)⟩
  rw [← isNegative_number hnumeral]
  exact isNegative_append (number_ne_empty hnumeral) "px"

namespace IsLengthOf

variable {x : Binary64} {text : String}

theorem noSpace (h : IsLengthOf x text) : ' ' ∉ text.toList := h.plain.notMem rfl

theorem ne_inset (h : IsLengthOf x text) : text ≠ "inset" := by
  rintro rfl
  exact absurd h.plain (by decide)

theorem leads (h : IsLengthOf x text) : Leads 0 0 text := by
  refine .flat (h.plain.mono fun c hc ↦ ?_) (Or.inr (h.plain.notMem rfl))
  simp only [isLengthChar, Bool.or_eq_true, beq_iff_eq] at hc
  rcases hc with (hc | rfl) | rfl
  · exact isFlat_of_isNumeralChar hc
  · rfl
  · rfl

/-- A property whose value is one length. -/
theorem signs (h : IsLengthOf x text) (property : Property)
    (hlengths : Declaration.lengths ⟨property, text⟩ = [text]) :
    Signs [x] [⟨property, text⟩] := by
  simp [Signs, Declaration.isDropped, hlengths, h.sign]

theorem any_isNegative {xs : List Binary64} {texts : List String}
    (h : List.Forall₂ IsLengthOf xs texts) :
    texts.any isNegative = xs.any roundsBelowZero := by
  induction h with
  | nil => rfl
  | cons htext _ ih => rw [List.any_cons, List.any_cons, htext.sign, ih]

/-- A property whose value is a list of lengths. -/
theorem signs_intercalate {xs : List Binary64} {texts : List String}
    (h : List.Forall₂ IsLengthOf xs texts) (hne : texts ≠ []) (property : Property)
    (hlengths : ∀ value, Declaration.lengths ⟨property, value⟩ = wordsOf value) :
    Signs xs [⟨property, " ".intercalate texts⟩] := by
  have hspace : ∀ text ∈ texts, ' ' ∉ text.toList := by
    clear hne
    induction h with
    | nil => exact fun _ htext ↦ absurd htext List.not_mem_nil
    | cons htext _ ih => exact List.forall_mem_cons.mpr ⟨htext.noSpace, ih⟩
  have hdropped := any_isNegative h
  rw [← wordsOf_intercalate hne hspace, ← hlengths] at hdropped
  exact (Bool.or_false _).trans hdropped

end IsLengthOf

/-! ## Layouts -/

theorem extent_sign (e : Extent) :
    Ensures (fun text ↦ isNegative text = e.numbers.any roundsBelowZero) (extent e) := by
  cases e with
  | auto => exact .ok (by decide)
  | length x =>
      intro text h
      rw [(pixels_isLengthOf x text h).sign]
      exact (Bool.or_false _).symm

theorem sizes_signs (width height : Binary64) :
    Ensures (fun groups ↦ Signs [width, height] groups.flatten) (sizes width height) := by
  refine .bind (pixels_isLengthOf width) fun w hw ↦ .bind (pixels_isLengthOf height) fun l hl ↦ ?_
  exact .pure ((hw.signs .width rfl).append (hl.signs .height rfl))

theorem signs_placement (property : Property)
    (h : ∀ value, Declaration.lengths ⟨property, value⟩ = []) (p? : Option FlowPlacement) :
    Signs [] (p?.map fun p ↦ [⟨property, placement p⟩]).toList.flatten := by
  refine .unbounded fun d hd ↦ ?_
  cases p? with
  | none => exact absurd hd List.not_mem_nil
  | some p =>
      rw [List.mem_singleton.mp hd]
      exact h _

theorem flowRules_signs (box : FlowBox) :
    Ensures (fun groups ↦ Signs (Layout.flow box).numbers groups.flatten) (flowRules box) := by
  refine .bind (pixels_isLengthOf box.gap) fun gap hgap ↦ ?_
  refine .bind (pixels_isLengthOf box.padding.top) fun top htop ↦ ?_
  refine .bind (pixels_isLengthOf box.padding.right) fun right hright ↦ ?_
  refine .bind (pixels_isLengthOf box.padding.bottom) fun bottom hbottom ↦ ?_
  refine .bind (pixels_isLengthOf box.padding.left) fun left hleft ↦ ?_
  refine .bind (extent_sign box.width) fun width hwidth ↦ ?_
  refine .bind (extent_sign box.height) fun height hheight ↦ .pure ?_
  have hsides : List.Forall₂ IsLengthOf box.padding.numbers [top, right, bottom, left] :=
    .cons htop (.cons hright (.cons hbottom (.cons hleft .nil)))
  have hpadding := IsLengthOf.signs_intercalate hsides (List.cons_ne_nil _ _) .padding fun _ ↦ rfl
  have hsizes : Signs (box.width.numbers ++ box.height.numbers)
      [⟨.width, width⟩, ⟨.height, height⟩, ⟨.position, "relative"⟩] := by
    simp [Signs, Declaration.isDropped, Declaration.lengths, hwidth, hheight]
  have hstart : Signs [] [⟨.display, "flex"⟩, ⟨.flexDirection, box.direction.name⟩] := rfl
  have halign := signs_placement .alignItems (fun _ ↦ rfl) box.align
  have hjustify := signs_placement .justifyContent (fun _ ↦ rfl) box.justify
  have hall := ((((hstart.append (hgap.signs .gap rfl)).append hpadding).append
    halign).append hjustify).append hsizes
  simpa [Layout.numbers] using hall

theorem layoutRules_signs (layout : Layout) :
    Ensures (fun groups ↦ Signs layout.numbers groups.flatten) (layoutRules layout) := by
  cases layout with
  | flow box => exact flowRules_signs box
  | flowItem width height => exact sizes_signs width height
  | absolute x y width height =>
      refine .after fun left ↦ .after fun top ↦ ?_
      refine .bind (sizes_signs width height) fun sizes hsizes ↦ ?_
      have hplace : Signs [] [⟨.position, "absolute"⟩, ⟨.left, left⟩, ⟨.top, top⟩] := rfl
      exact .pure (hplace.append hsizes)
  | unplaced => exact .ok .nil

/-! ## Strokes, shadows and corners -/

/-- The width of the stroke that is drawn on the outline, if there is one. -/
def borderWidths (strokes : List Stroke) : List Binary64 :=
  match drawnStroke? strokes with
  | some (stroke, _) => if stroke.align = .center then [stroke.width] else []
  | none => []

theorem border_signs (strokes : List Stroke) :
    Ensures (Signs (borderWidths strokes)) (border strokes) := by
  unfold border borderWidths
  cases drawnStroke? strokes with
  | none => exact .ok .nil
  | some drawn =>
      obtain ⟨stroke, color⟩ := drawn
      by_cases halign : stroke.align = .center
      · simp only [if_pos halign]
        refine .bind (pixels_isLengthOf stroke.width) fun width hwidth ↦ .after fun text ↦ .pure ?_
        have hwords : wordsOf (width ++ " solid " ++ text) =
            width :: wordsOf ("solid " ++ text) := by
          have hsolid : " solid " = " " ++ "solid " := rfl
          rw [hsolid, ← String.append_assoc, String.append_assoc, wordsOf_append hwidth.noSpace]
        simp [Signs, Declaration.isDropped, Declaration.lengths, hwords, hwidth.sign]
      · simp only [if_neg halign]
        exact .ok .nil

/-- A layer of a shadow with a blur of the sign of a number. -/
structure IsLayerOf (x : Binary64) (layer : String) : Prop where
  leads : Leads 0 0 layer
  blur : (blurOf? layer).map isNegative = some (roundsBelowZero x)

theorem leads_space : Leads 0 0 " " := rfl

theorem shadow_isLayerOf (s : Shadow) : Ensures (IsLayerOf s.blur) (shadow s) := by
  intro text h
  obtain ⟨color, x, y, blur, spread, ⟨own, hcolor⟩, hx, hy, hblur, hspread, rfl⟩ := shadow_eq_ok h
  have hx := pixels_isLengthOf s.x x hx
  have hy := pixels_isLengthOf s.y y hy
  have hblur := pixels_isLengthOf s.blur blur hblur
  have hspread := pixels_isLengthOf s.spread spread hspread
  constructor
  · have hparts : ∀ part ∈ [x, y, blur, spread, color], Leads 0 0 part := by
      simp only [List.forall_mem_cons]
      exact ⟨hx.leads, hy.leads, hblur.leads, hspread.leads, leads_rgba hcolor 0, nofun⟩
    refine (Leads.intercalate leads_space hparts).append ?_
    cases s.inset with
    | true => rfl
    | false => rfl
  · have hwords (rest : String) : wordsOf (x ++ " " ++ (y ++ " " ++ (blur ++ " " ++ rest))) =
        x :: y :: blur :: wordsOf rest := by
      rw [wordsOf_append hx.noSpace, wordsOf_append hy.noSpace, wordsOf_append hblur.noSpace]
    -- the first three words are lengths, none of them the mark of an inner shadow
    have htext (rest : String) : blurOf? (" ".intercalate [x, y, blur, spread, color] ++ rest) =
        some blur := by
      have hjoined : " ".intercalate [x, y, blur, spread, color] ++ rest =
          x ++ " " ++ (y ++ " " ++ (blur ++ " " ++ (spread ++ " " ++ color ++ rest))) := by
        simp [String.append_assoc]
      rw [hjoined, blurOf?, hwords]
      simp [hx.ne_inset, hy.ne_inset, hblur.ne_inset]
    rw [htext, Option.map_some, hblur.sign]

theorem roundsBelowZero_zero : roundsBelowZero 0 = false :=
  Bool.eq_false_iff.mpr fun h ↦ Bool.noConfusion (Binary64.lt_zero_of_roundPlaces h)

theorem blurOf?_ringStart {align : StrokeAlign} {start : String} (h : ringStart? align = some start)
    (rest : String) : Leads 0 0 start ∧ blurOf? (start ++ rest) = some "0" := by
  have hword {word : String} (hword : ' ' ∉ word.toList) (rest : String) :
      wordsOf (word ++ " " ++ rest) = word :: wordsOf rest := wordsOf_append hword rest
  unfold ringStart? at h
  split at h
  · have htext : "inset 0 0 0 " ++ rest =
        "inset" ++ " " ++ ("0" ++ " " ++ ("0" ++ " " ++ ("0" ++ " " ++ rest))) := by
      simp only [← String.append_assoc]
      rfl
    rw [← Option.some.inj h, blurOf?, htext, hword (by decide), hword (by decide),
      hword (by decide), hword (by decide)]
    exact ⟨rfl, rfl⟩
  · have htext : "0 0 0 " ++ rest = "0" ++ " " ++ ("0" ++ " " ++ ("0" ++ " " ++ rest)) := by
      simp only [← String.append_assoc]
      rfl
    rw [← Option.some.inj h, blurOf?, htext, hword (by decide), hword (by decide),
      hword (by decide)]
    exact ⟨rfl, rfl⟩
  · exact nomatch h

/-- A ring has no blur. -/
theorem ring?_isLayerOf (strokes : List Stroke) :
    Ensures (fun ring ↦ ∃ zeros : List Binary64, zeros.any roundsBelowZero = false ∧
      List.Forall₂ IsLayerOf zeros ring.toList) (ring? strokes) := by
  unfold ring?
  split
  · next stroke color _ =>
      split
      · next start hstart =>
          refine .bind (pixels_isLengthOf stroke.width) fun width hwidth ↦ ?_
          refine .bind (fun _ hcolor ↦ leads_rgba hcolor 0) fun text htext ↦ .pure ?_
          obtain ⟨hleads, hblur⟩ := blurOf?_ringStart hstart (width ++ " " ++ text)
          have hjoined : start ++ width ++ " " ++ text = start ++ (width ++ " " ++ text) := by
            simp only [String.append_assoc]
          have hlayer : IsLayerOf 0 (start ++ (width ++ " " ++ text)) := by
            refine ⟨hleads.append ((hwidth.leads.append leads_space).append htext), ?_⟩
            rw [hblur, roundsBelowZero_zero]
            rfl
          rw [hjoined]
          exact ⟨[0], by simp [roundsBelowZero_zero], .cons hlayer .nil⟩
      · exact .ok ⟨[], rfl, .nil⟩
  · exact .ok ⟨[], rfl, .nil⟩

def blursOf (effects : List Effect) : List Binary64 :=
  (effects.filterMap Effect.shadow?).map Shadow.blur

theorem any_blurOf? {xs : List Binary64} {layers : List String}
    (h : List.Forall₂ IsLayerOf xs layers) :
    (∀ layer ∈ layers, Leads 0 0 layer) ∧
      (layers.filterMap blurOf?).any isNegative = xs.any roundsBelowZero := by
  induction h with
  | nil => exact ⟨fun _ hlayer ↦ absurd hlayer List.not_mem_nil, rfl⟩
  | cons hlayer _ ih =>
      obtain ⟨blur, hblur, hsign⟩ := Option.map_eq_some_iff.mp hlayer.blur
      refine ⟨List.forall_mem_cons.mpr ⟨hlayer.leads, ih.1⟩, ?_⟩
      rw [List.filterMap_cons_some hblur, List.any_cons, List.any_cons, hsign, ih.2]

theorem boxShadow_signs (effects : List Effect) (strokes : List Stroke) :
    Ensures (Signs (blursOf effects)) (boxShadow effects strokes) := by
  have hshadows : Ensures (List.Forall₂ IsLayerOf (blursOf effects))
      ((effects.filterMap Effect.shadow?).mapM shadow) := fun texts htexts ↦
    List.forall₂_map_left_iff.mpr
      ((mapM_eq_ok.mp htexts).imp fun s text htext ↦ shadow_isLayerOf s text htext)
  refine .bind (ring?_isLayerOf strokes) fun ring hring ↦ .bind hshadows fun shadows hshadows ↦
    .pure ?_
  obtain ⟨zeros, hzeros, hring⟩ := hring
  have hlayers : List.Forall₂ IsLayerOf (zeros ++ blursOf effects) (ring.toList ++ shadows) :=
    List.rel_append hring hshadows
  obtain ⟨hleads, hany⟩ := any_blurOf? hlayers
  rw [List.any_append, hzeros, Bool.false_or] at hany
  generalize ring.toList ++ shadows = layers at hleads hany ⊢
  cases layers with
  | nil => exact hany
  | cons layer layers =>
      have hlayers := layersOf_intercalate (List.cons_ne_nil layer layers) hleads
      rw [← hlayers] at hany
      exact (Bool.or_false _).trans hany

theorem cornerRadius_signs (radius : Option CornerRadius) :
    Ensures (Signs (radius.toList.flatMap CornerRadius.numbers)) (cornerRadius radius) := by
  cases radius with
  | none => exact .ok .nil
  | some radius =>
      cases radius with
      | uniform x =>
          refine .bind (pixels_isLengthOf x) fun text htext ↦ .pure ?_
          have hwords : wordsOf text = [text] := wordsOf_word htext.noSpace
          exact htext.signs .borderRadius hwords
      | corners topLeft topRight bottomRight bottomLeft =>
          intro ds h
          obtain ⟨texts, htexts, h⟩ := bind_eq_ok.mp h
          have hradii := (mapM_eq_ok.mp htexts).imp pixels_isLengthOf
          rw [← pure_eq_ok.mp h]
          refine IsLengthOf.signs_intercalate hradii ?_ .borderRadius fun _ ↦ rfl
          rintro rfl
          exact nomatch hradii

/-! ## Other properties -/

/-- The properties with lengths that may not be negative. -/
def boundedProperties : List Property :=
  [.gap, .width, .height, .fontSize, .lineHeight, .padding, .borderRadius, .border, .boxShadow]

theorem lengths_eq_nil {d : Declaration} (h : d.property ∉ boundedProperties) : d.lengths = [] := by
  obtain ⟨property, value⟩ := d
  cases property with
  | gap | width | height | fontSize | lineHeight | padding | borderRadius | border | boxShadow =>
      simp [boundedProperties] at h
  | _ => rfl

theorem Declares.signs {properties : List Property} {ds : List Declaration}
    (h : Declares properties ds)
    (hnone : ∀ property ∈ properties, property ∉ boundedProperties) : Signs [] ds :=
  .unbounded fun d hd ↦ lengths_eq_nil (hnone d.property (h d hd).1)

theorem fillRules_signs (c : Classified) (asset : Option ImageAsset) :
    Ensures (Signs []) (fillRules c asset) := by
  unfold fillRules
  split
  · exact fun ds hds ↦ (declares_textColor hds).signs (by decide)
  · intro ds hds
    obtain ⟨layers, hlayers, hds⟩ := bind_eq_ok.mp hds
    rw [← pure_eq_ok.mp hds]
    refine ((declares_background hlayers).signs (by decide)).append (.unbounded fun d hd ↦ ?_)
    rcases mem_imageRules hd with ⟨image, _, rfl⟩ | ⟨hproperty, _⟩
    · rfl
    · exact lengths_eq_nil ((by decide : ∀ p ∈ placing, p ∉ boundedProperties) _ hproperty)

/-! ## Type -/

theorem optional_signs (field : Option Binary64) :
    Ensures (Signs field.toList) (optional .lineHeight pixels field) := by
  unfold optional
  split
  · exact .ok .nil
  · next x =>
      split
      · next hzero =>
          -- a number of zero is not written, nor would it be negative
          refine .ok ?_
          have hnot : roundsBelowZero x = false := by
            refine Bool.eq_false_iff.mpr fun hbelow ↦ ?_
            cases x with
            | finite negative magnitude =>
                have hlt := Binary64.finite_lt_zero_iff.mp (Binary64.lt_zero_of_roundPlaces hbelow)
                exact hlt.2 (eq_of_beq hzero)
            | infinite _ | nan => exact Bool.noConfusion hzero
          simp [Signs, hnot]
      · exact .bind (pixels_isLengthOf x) fun text htext ↦ .pure (htext.signs .lineHeight rfl)

theorem typographyRules_signs (t : Typography) :
    Ensures (Signs t.lengths) (typographyRules t) := by
  intro ds h
  obtain ⟨size, hsize, h⟩ := bind_eq_ok.mp h
  obtain ⟨weight, hweight, h⟩ := bind_eq_ok.mp h
  obtain ⟨lineHeight, hlineHeight, h⟩ := bind_eq_ok.mp h
  obtain ⟨letterSpacing, hletterSpacing, h⟩ := bind_eq_ok.mp h
  -- only the size and the line height are lengths that may not be negative
  have hsize := (pixels_isLengthOf t.fontSize size hsize).signs .fontSize rfl
  have hweight := (declares_optional (fun _ _ ↦ madeOf_number) hweight).signs (by decide)
  have hlineHeight := optional_signs t.lineHeight lineHeight hlineHeight
  have hletterSpacing := (declares_optional (fun _ _ ↦ madeOf_pixels) hletterSpacing).signs
    (by decide)
  have hfamily : Signs [] [⟨.fontFamily, fontFamily t.fontFamily⟩] := rfl
  have halign : Signs []
      (if t.textAlign = "" then [] else [⟨.textAlign, textAlign t.textAlign⟩]) := by
    split <;> rfl
  have hdecoration : Signs []
      ((textDecoration? t.textDecoration).map (⟨.textDecoration, ·⟩)).toList := by
    cases textDecoration? t.textDecoration <;> rfl
  have htransform : Signs [] ((textTransform? t.textCase).map (⟨.textTransform, ·⟩)).toList := by
    cases textTransform? t.textCase <;> rfl
  have hall := (((((((hfamily.append hsize).append hweight).append hlineHeight).append
    hletterSpacing).append halign).append hdecoration).append htransform)
  rw [← pure_eq_ok.mp h]
  simpa [Typography.lengths] using hall

def lengthsOfType (t? : Option Typography) : List Binary64 := t?.toList.flatMap Typography.lengths

theorem liveTextRules_signs (c : Classified) :
    Ensures (Signs (if c.strategy = .text then lengthsOfType c.element.style.typography else []))
      (liveTextRules c) := by
  unfold liveTextRules
  cases c.strategy with
  | text =>
      cases c.element.style.typography with
      | none => exact .ok .nil
      | some t =>
          refine .bind (typographyRules_signs t) fun ds hds ↦ .pure ?_
          have hspace : Signs [] [⟨.whiteSpace, "pre-wrap"⟩] := rfl
          simpa [lengthsOfType] using hds.append hspace
  | markup | imageFallback => exact .ok .nil

/-! ## Elements -/

/-- The lengths of a style besides those of its type. -/
def lengthsOfBox (style : Style) : List Binary64 :=
  borderWidths style.strokes ++ blursOf style.effects ++
    style.cornerRadius.toList.flatMap CornerRadius.numbers

/-- The lengths in the block of an element. -/
def ownLengths (c : Classified) : List Binary64 :=
  c.element.layout.numbers ++
    if c.strategy = .imageFallback then []
    else lengthsOfBox c.element.style ++
      if c.strategy = .text then lengthsOfType c.element.style.typography else []

/-- The lengths in the blocks of its runs. -/
def runLengths (c : Classified) : List Binary64 :=
  if c.strategy = .text then c.element.runs.flatMap fun run ↦ lengthsOfType run.typography else []

theorem elementRules_signs (c : Classified) (asset : Option ImageAsset) :
    Ensures (Signs (ownLengths c)) (elementRules c asset) := by
  refine .bind (layoutRules_signs c.element.layout) fun groups hgroups ↦ ?_
  unfold ownLengths
  dsimp only
  split
  · rw [List.append_nil]
    exact .pure hgroups
  · refine .bind (fillRules_signs c asset) fun fills hfills ↦ ?_
    refine .bind (border_signs _) fun border hborder ↦ ?_
    refine .bind (boxShadow_signs _ _) fun shadows hshadows ↦ ?_
    refine .bind (fun _ hds ↦ (declares_opacity hds).signs (by decide)) fun opacity hopacity ↦ ?_
    refine .bind (cornerRadius_signs _) fun corners hcorners ↦ ?_
    refine .bind (liveTextRules_signs c) fun typography htypography ↦ .pure ?_
    have hall := (((((hgroups.append hfills).append hborder).append hshadows).append
      hopacity).append hcorners).append htypography
    simpa [lengthsOfBox] using hall

/-! ## Runs -/

/-- What is left out of the rules of a run has no negative length if the type around it has none. -/
theorem changedTypography_signs (run : Typography) {base : Option Typography}
    (hbase : (lengthsOfType base).any roundsBelowZero = false) :
    Ensures (Signs run.lengths) (changedTypography run base) := by
  intro ds h
  obtain ⟨inherited, all, hall, rfl, hinherited⟩ := changedTypography_eq_ok h
  have hkept : inherited.any Declaration.isDropped = false := by
    rcases hinherited with rfl | ⟨b, rfl, hb⟩
    · rfl
    · rw [typographyRules_signs b inherited hb]
      simpa [lengthsOfType] using hbase
  refine .trans ?_ (typographyRules_signs run all hall)
  rw [List.any_filter]
  refine List.any_congr rfl fun d ↦ ?_
  cases hdropped : d.isDropped with
  | false => exact Bool.and_false _
  | true =>
      have hnot : d ∉ inherited := by
        intro hd
        exact List.any_eq_false.mp hkept d hd hdropped
      simp [hnot]

theorem runRules_signs (run : TextRun) {base : Option Typography}
    (hbase : (lengthsOfType base).any roundsBelowZero = false) :
    Ensures (Signs (lengthsOfType run.typography)) (runRules run base) := by
  intro ds h
  obtain ⟨color, typography, rfl, hcolor, htypography⟩ := runRules_eq_ok h
  refine (hcolor.signs (by decide)).append ?_
  rcases htypography with ⟨hnone, rfl⟩ | ⟨own, hown, hchanged⟩
  · rw [hnone]
    exact .nil
  · rw [hown]
    simpa [lengthsOfType] using changedTypography_signs own hbase _ hchanged

/-! ## Blocks -/

def Block.losesRule (block : Block) : Bool := block.declarations.any Declaration.isDropped

theorem any_block? (selector : String) (ds : List Declaration) :
    (block? selector ds).toList.any Block.losesRule = ds.any Declaration.isDropped := by
  cases ds with
  | nil => rfl
  | cons d ds => exact Bool.or_false _

theorem any_blocks {runs : List (TextRun × Nat)} {blocks : List (Option Block)}
    (h : List.Forall₂ (fun entry block? ↦ block?.toList.any Block.losesRule =
      (lengthsOfType entry.1.typography).any roundsBelowZero) runs blocks) :
    (blocks.filterMap id).any Block.losesRule =
      ((runs.map Prod.fst).flatMap fun run ↦ lengthsOfType run.typography).any roundsBelowZero := by
  induction h with
  | nil => rfl
  | @cons entry block? runs blocks hblock _ ih =>
      rw [List.map_cons, List.flatMap_cons, List.any_append, ← hblock, ← ih]
      cases block? with
      | none => rfl
      | some block => simp

theorem runBlocks_signs (c : Classified)
    (hbase : (ownLengths c).any roundsBelowZero = false) :
    Ensures (fun blocks ↦ blocks.any Block.losesRule = (runLengths c).any roundsBelowZero)
      (runBlocks c) := by
  unfold runBlocks
  split
  · next hstyled =>
      have htype : (lengthsOfType c.element.style.typography).any roundsBelowZero = false := by
        rw [ownLengths, hstyled.1] at hbase
        simp only [List.any_append, Bool.or_eq_false_iff, reduceCtorEq, if_false, if_true] at hbase
        exact hbase.2.2
      intro blocks h
      obtain ⟨options, hoptions, h⟩ := bind_eq_ok.mp h
      have hsigns := (mapM_eq_ok.mp hoptions).imp
        (S := fun entry block? ↦ block?.toList.any Block.losesRule =
          (lengthsOfType entry.1.typography).any roundsBelowZero) fun entry option hoption ↦ by
        obtain ⟨ds, hds, hblock⟩ := bind_eq_ok.mp hoption
        rw [← pure_eq_ok.mp hblock]
        exact (any_block? _ ds).trans (runRules_signs entry.1 htype ds hds)
      rw [← pure_eq_ok.mp h, any_blocks hsigns, List.zipIdx_map_fst, runLengths,
        if_pos hstyled.1]
  · next hplain =>
      -- no run has a type of its own
      refine .ok ?_
      unfold runLengths
      split
      · next htext =>
          refine (List.any_eq_false.mpr fun x hx ↦ ?_).symm
          obtain ⟨run, hrun, hx⟩ := List.mem_flatMap.mp hx
          refine absurd ⟨htext, List.any_eq_true.mpr ⟨run, hrun, ?_⟩⟩ hplain
          cases htypography : run.typography with
          | none =>
              rw [htypography] at hx
              exact absurd hx List.not_mem_nil
          | some t => rw [TextRun.isStyled, htypography]; rfl
      · rfl

theorem elementBlocks_signs (assets : ImageAssets) (c : Classified) :
    Ensures (fun blocks ↦ blocks.any Block.losesRule =
      (ownLengths c ++ runLengths c).any roundsBelowZero) (elementBlocks assets c) := by
  refine .bind (elementRules_signs c _) fun ds hds ↦ ?_
  have hown := (any_block? (Naming.cssClass c.id) ds).trans hds
  cases hbase : (ownLengths c).any roundsBelowZero with
  | true =>
      refine .after fun blocks ↦ .pure ?_
      rw [List.any_append, List.any_append, hown, hbase, Bool.true_or, Bool.true_or]
  | false =>
      refine .bind (runBlocks_signs c hbase) fun blocks hblocks ↦ .pure ?_
      rw [List.any_append, List.any_append, hown, hbase, hblocks]

/-- The numbers that the lengths of an element are written from, its runs among them. -/
def lengthsOf (c : Classified) : List Binary64 := ownLengths c ++ runLengths c

/-- A stylesheet has a negative length exactly if an element has one that is not rounded away. -/
theorem blocks_signs (assets : ImageAssets) (scene : ClassifiedScene) :
    Ensures (fun all ↦ all.any Block.losesRule =
      (scene.elements.flatMap lengthsOf).any roundsBelowZero) (blocks assets scene) := by
  intro all h
  obtain ⟨lists, hlists, h⟩ := bind_eq_ok.mp h
  have hsigns := (mapM_eq_ok.mp hlists).imp (elementBlocks_signs assets)
  rw [← pure_eq_ok.mp h]
  clear hlists h
  generalize scene.elements = elements at hsigns ⊢
  induction hsigns with
  | nil => rfl
  | cons hlist _ ih =>
      rw [List.flatten_cons, List.flatMap_cons, List.any_append, List.any_append, hlist, ih]
      rfl

end Css
end DesignToWeb
