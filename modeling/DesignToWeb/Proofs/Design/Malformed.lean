import Mathlib.Order.Basic
import DesignToWeb.Design.Element

/-!
# What is wrong with a node

The fields of a node may hold anything, and most of what is no use gives way to a
fallback.  Two things do not: a whole number beyond the range of numbers, and an
array or object where the name of a type or of a scale mode is looked up.  Every
reading of a node, of its paints, effects, corners, text and layout, fails by
these alone, and by those only that stand somewhere in the node or in the box of
its parent.
-/

namespace DesignToWeb

/-! ## Where a fault comes from -/

def Json.isCompound : Json → Bool
  | arr _ | obj _ => true
  | _ => false

/-- What is wrong with a value: some number in it is too large, or some object in it has an array or
object for a name. -/
inductive Json.Malformed : Json → Fault → Prop
  | integer {n : Int} (h : (Binary64.ofInt n).isFinite = false) :
      Malformed (.int n) .integerTooLarge
  | name {fields : List (String × Json)} {key : String} {value : Json}
      (hkey : key ∈ ["type", "scaleMode"]) (hmem : (key, value) ∈ fields)
      (h : value.isCompound = true) : Malformed (.obj fields) (.compoundName value)
  | item {items : List Json} {item : Json} {fault : Fault} (hmem : item ∈ items)
      (h : Malformed item fault) : Malformed (.arr items) fault
  | field {fields : List (String × Json)} {key : String} {value : Json} {fault : Fault}
      (hmem : (key, value) ∈ fields) (h : Malformed value fault) : Malformed (.obj fields) fault

def Attributes.Malformed (a : Attributes) : Fault → Prop := (Json.obj a.fields).Malformed

/-- Whether a computation ends early by some faults alone. -/
def FailsBy {α : Type} (P : Fault → Prop) (x : Except Fault α) : Prop :=
  ∀ fault, x = .error fault → P fault

namespace FailsBy

variable {α β : Type} {P Q : Fault → Prop}

theorem ok (a : α) : FailsBy P (.ok a) := fun _ h ↦ nomatch h

theorem pure (a : α) : FailsBy P (Pure.pure a) := ok a

theorem error {fault : Fault} (h : P fault) : FailsBy P (.error fault : Except Fault α) := by
  intro _ hfault
  rw [← Except.error.inj hfault]
  exact h

theorem mono {x : Except Fault α} (h : FailsBy P x) (hle : P ≤ Q) : FailsBy Q x :=
  fun fault hfault ↦ hle fault (h fault hfault)

theorem bind {x : Except Fault α} {f : α → Except Fault β} (hx : FailsBy P x)
    (hf : ∀ a, x = .ok a → FailsBy P (f a)) : FailsBy P (x >>= f) := by
  cases x with
  | error fault => exact error (hx fault rfl)
  | ok a => exact hf a rfl

theorem map {x : Except Fault α} {f : α → β} (hx : FailsBy P x) : FailsBy P (f <$> x) := by
  cases x with
  | error fault => exact error (hx fault rfl)
  | ok a => exact ok (f a)

theorem mapM {f : α → Except Fault β} {as : List α} (h : ∀ a ∈ as, FailsBy P (f a)) :
    FailsBy P (as.mapM f) := by
  induction as with
  | nil => exact pure []
  | cons a as ih =>
      rw [List.mapM_cons]
      refine bind (h a List.mem_cons_self) fun _ _ ↦ ?_
      exact bind (ih fun b hb ↦ h b (List.mem_cons_of_mem a hb)) fun _ _ ↦ pure _

end FailsBy

/-! ## Parts of values -/

namespace Attributes

variable {a : Attributes} {key : String}

theorem not_malformed_empty {fault : Fault} : ¬ empty.Malformed fault := by
  rintro (_ | ⟨_, hmem, _⟩ | _ | ⟨hmem, _⟩) <;> exact absurd hmem List.not_mem_nil

theorem malformed_get? {value : Json} (h : a.get? key = some value) :
    value.Malformed ≤ a.Malformed :=
  fun _ hvalue ↦ .field (mem_of_lookup h) hvalue

theorem malformed_get (a : Attributes) (key : String) : (a.get key).Malformed ≤ a.Malformed := by
  rw [get]
  cases h : a.get? key with
  | none => exact fun _ hnull ↦ nomatch hnull
  | some value => exact malformed_get? h

theorem mem_of_get {value : Json} (h : a.get key = value) (hvalue : value ≠ .null) :
    (key, value) ∈ a.fields := by
  rw [get] at h
  cases hkey : a.get? key with
  | none =>
      rw [hkey] at h
      exact absurd h.symm hvalue
  | some found =>
      rw [hkey] at h
      exact mem_of_lookup (hkey.trans (congrArg some h))

end Attributes

namespace Json

theorem malformed_obj_cons (field : String × Json) (fields : List (String × Json)) :
    (obj fields).Malformed ≤ (obj (field :: fields)).Malformed := by
  rintro _ (_ | ⟨hkey, hmem, h⟩ | _ | ⟨hmem, h⟩)
  · exact .name hkey (List.mem_cons_of_mem field hmem) h
  · exact .field (List.mem_cons_of_mem field hmem) h

theorem malformed_arr_cons (item : Json) (items : List Json) :
    (arr items).Malformed ≤ (arr (item :: items)).Malformed := by
  rintro _ (_ | _ | ⟨hmem, h⟩)
  exact .item (List.mem_cons_of_mem item hmem) h

theorem malformed_of_mem_items {j item : Json} (h : item ∈ j.items) :
    item.Malformed ≤ j.Malformed := by
  cases j with
  | arr items => exact fun _ hitem ↦ .item h hitem
  | _ => exact absurd h List.not_mem_nil

theorem malformed_of_attributes? {j : Json} {a : Attributes} (h : j.attributes? = some a) :
    a.Malformed ≤ j.Malformed := by
  cases j with
  | obj fields =>
      obtain rfl := Option.some.inj h
      exact fun _ hfault ↦ hfault
  | _ => exact nomatch h

theorem malformed_attributes (j : Json) : j.attributes.Malformed ≤ j.Malformed := by
  rw [attributes]
  cases h : j.attributes? with
  | some a => exact malformed_of_attributes? h
  | none => exact fun _ hempty ↦ absurd hempty Attributes.not_malformed_empty

theorem malformed_of_mem_objects {j : Json} {a : Attributes} (h : a ∈ j.objects) :
    a.Malformed ≤ j.Malformed := by
  obtain ⟨item, hitem, ha⟩ := List.mem_filterMap.mp h
  exact (malformed_of_attributes? ha).trans (malformed_of_mem_items hitem)

end Json

/-! ## Readings of one node -/

namespace Design

variable {P : Fault → Prop}

theorem ofIntChecked_failsBy (n : Int) :
    FailsBy (Json.int n).Malformed (Binary64.ofIntChecked n) := by
  rw [Binary64.ofIntChecked]
  split
  · exact .ok _
  · rename_i h
    exact .error (.integer (Bool.eq_false_iff.mpr h))

theorem toNumberOr_failsBy {j : Json} (h : j.Malformed ≤ P) (fallback : Binary64) :
    FailsBy P (j.toNumberOr fallback) := by
  cases j with
  | int n => exact (ofIntChecked_failsBy n).mono h
  | _ => exact .ok _

theorem toNumber_failsBy {j : Json} (h : j.Malformed ≤ P) : FailsBy P j.toNumber :=
  toNumberOr_failsBy h 0

theorem numberAt_failsBy {a : Attributes} (h : a.Malformed ≤ P) (key : String) :
    FailsBy P (a.get key).toNumber :=
  toNumber_failsBy ((a.malformed_get key).trans h)

theorem readColor_failsBy {color opacity : Json} (hcolor : color.Malformed ≤ P)
    (hopacity : opacity.Malformed ≤ P) : FailsBy P (readColor color opacity) := by
  have hattributes := (Json.malformed_attributes color).trans hcolor
  refine .bind (toNumberOr_failsBy ?_ 1) fun _ _ ↦ ?_
  · split
    · exact hopacity
    · exact (Attributes.malformed_get _ _).trans hattributes
  refine .bind (numberAt_failsBy hattributes "r") fun _ _ ↦ ?_
  refine .bind (numberAt_failsBy hattributes "g") fun _ _ ↦ ?_
  exact .bind (numberAt_failsBy hattributes "b") fun _ _ ↦ .pure _

theorem readOwnColor_failsBy {paint : Attributes} (h : paint.Malformed ≤ P) :
    FailsBy P (readOwnColor paint) :=
  readColor_failsBy ((paint.malformed_get _).trans h) ((paint.malformed_get _).trans h)

theorem readStops_failsBy {stops : Json} (h : stops.Malformed ≤ P) :
    FailsBy P (readStops stops) := by
  refine .mapM fun stop hstop ↦ ?_
  have hle := (Json.malformed_of_mem_objects hstop).trans h
  exact .bind (numberAt_failsBy hle "position") fun _ _ ↦
    .bind (readOwnColor_failsBy hle) fun _ _ ↦ .pure _

theorem readHandles_failsBy {start stop : Attributes} (hstart : start.Malformed ≤ P)
    (hstop : stop.Malformed ≤ P) : FailsBy P (readHandles start stop) := by
  refine .bind (numberAt_failsBy hstop "x") fun _ _ ↦ ?_
  refine .bind (numberAt_failsBy hstart "x") fun _ _ ↦ ?_
  refine .bind (numberAt_failsBy hstop "y") fun _ _ ↦ ?_
  exact .bind (numberAt_failsBy hstart "y") fun _ _ ↦ .pure _

theorem readDirection_failsBy {paint : Attributes} (h : paint.Malformed ≤ P) :
    FailsBy P (readDirection paint) := by
  have htransform := (paint.malformed_get "gradientTransform").trans h
  have hhandles := (paint.malformed_get "gradientHandlePositions").trans h
  rw [readDirection]
  split
  · rename_i dx _ dy _ _ heq
    rw [heq] at htransform
    have hdx : dx.Malformed ≤ P := fun fault hfault ↦ htransform fault
      (.item List.mem_cons_self (.item List.mem_cons_self hfault))
    have hdy : dy.Malformed ≤ P := fun fault hfault ↦ htransform fault
      (.item (List.mem_cons_of_mem _ List.mem_cons_self) (.item List.mem_cons_self hfault))
    refine .bind (toNumber_failsBy hdx) fun _ _ ↦ ?_
    exact .bind (toNumber_failsBy hdy) fun _ _ ↦ .pure _
  · split
    · rename_i start stop _ heq
      rw [heq] at hhandles
      refine readHandles_failsBy ?_ ?_
      · exact (Json.malformed_attributes start).trans fun fault hstart ↦
          hhandles fault (.item List.mem_cons_self hstart)
      · exact (Json.malformed_attributes stop).trans fun fault hstop ↦
          hhandles fault (.item (List.mem_cons_of_mem _ List.mem_cons_self) hstop)
    · exact .ok _

theorem readHeading_failsBy {paint : Attributes} (h : paint.Malformed ≤ P) :
    FailsBy P (readHeading paint) :=
  .bind (readDirection_failsBy h) fun _ _ ↦ .pure _

theorem readVisible_failsBy {α : Type} {read : Attributes → Except Fault (Reading α)}
    {entries : List Attributes} (h : ∀ entry ∈ entries, FailsBy P (read entry)) :
    FailsBy P (readVisible read entries) :=
  .bind (.mapM fun entry hentry ↦ h entry (List.mem_filter.mp hentry).1) fun _ _ ↦ .pure _

theorem readScaleMode_failsBy (paint : Attributes) :
    FailsBy paint.Malformed (readScaleMode (paint.get "scaleMode")) := by
  cases h : paint.get "scaleMode" with
  | str s =>
      rw [readScaleMode]
      split <;> exact .ok _
  | arr _ | obj _ => exact .error (.name (by decide) (Attributes.mem_of_get h nofun) rfl)
  | _ => exact .ok _

theorem readFill_failsBy (paint : Attributes) : FailsBy paint.Malformed (readFill paint) := by
  have hstops := readStops_failsBy (paint.malformed_get "gradientStops")
  have hheading := readHeading_failsBy (le_refl paint.Malformed)
  rw [readFill]
  split
  · exact .bind (readOwnColor_failsBy le_rfl) fun _ _ ↦ .pure _
  · exact .bind hstops fun _ _ ↦ .bind hheading fun _ _ ↦ .pure _
  · exact .bind hstops fun _ _ ↦ .pure _
  · exact .bind hstops fun _ _ ↦ .bind hheading fun _ _ ↦ .pure _
  · exact .bind hstops fun _ _ ↦ .bind hheading fun _ _ ↦ .pure _
  · exact .bind (readScaleMode_failsBy paint) fun _ _ ↦ .pure _
  · exact .pure _

theorem strokeWeight_malformed {node paint : Attributes} (h : paint.Malformed ≤ node.Malformed) :
    (strokeWeight node paint).Malformed ≤ node.Malformed := by
  rw [strokeWeight]
  cases hweight : paint.get? "weight" with
  | some weight => exact (Attributes.malformed_get? hweight).trans h
  | none =>
      cases hstroke : paint.get? "strokeWeight" with
      | some weight => exact (Attributes.malformed_get? hstroke).trans h
      | none => exact node.malformed_get "strokeWeight"

theorem strokeDashes_malformed {node paint : Attributes} (h : paint.Malformed ≤ node.Malformed)
    {dash : Json} (hdash : dash ∈ strokeDashes node paint) : dash.Malformed ≤ node.Malformed := by
  rw [strokeDashes] at hdash
  split at hdash
  · rename_i dashes heq
    have hpattern := (paint.malformed_get "dashPattern").trans h
    rw [heq] at hpattern
    exact fun fault hfault ↦ hpattern fault (.item hdash hfault)
  · exact (Json.malformed_of_mem_items hdash).trans (node.malformed_get "strokeDashes")

theorem readStroke_failsBy {node paint : Attributes} (h : paint.Malformed ≤ node.Malformed) :
    FailsBy node.Malformed (readStroke node paint) := by
  refine .bind (toNumberOr_failsBy (strokeWeight_malformed h) 1) fun _ _ ↦ ?_
  refine .bind (.mapM fun _ hdash ↦ toNumber_failsBy (strokeDashes_malformed h hdash)) fun _ _ ↦ ?_
  dsimp only
  split
  · exact .bind (readOwnColor_failsBy h) fun _ _ ↦ .pure _
  · split
    · exact .bind (readStops_failsBy ((paint.malformed_get _).trans h)) fun _ _ ↦
        .bind (readHeading_failsBy h) fun _ _ ↦ .pure _
    · exact .pure _

theorem readShadow_failsBy (inset : Bool) (effect : Attributes) :
    FailsBy effect.Malformed (readShadow inset effect) := by
  have hoffset := (Json.malformed_attributes _).trans (effect.malformed_get "offset")
  refine .bind (numberAt_failsBy hoffset "x") fun _ _ ↦ ?_
  refine .bind (numberAt_failsBy hoffset "y") fun _ _ ↦ ?_
  refine .bind (numberAt_failsBy le_rfl "radius") fun _ _ ↦ ?_
  refine .bind (numberAt_failsBy le_rfl "spread") fun _ _ ↦ ?_
  exact .bind (readOwnColor_failsBy le_rfl) fun _ _ ↦ .pure _

theorem readEffect_failsBy (effect : Attributes) :
    FailsBy effect.Malformed (readEffect effect) := by
  rw [readEffect]
  split
  · exact .bind (readShadow_failsBy false effect) fun _ _ ↦ .pure _
  · exact .bind (readShadow_failsBy true effect) fun _ _ ↦ .pure _
  · exact .bind (numberAt_failsBy le_rfl "radius") fun _ _ ↦ .pure _
  · exact .bind (numberAt_failsBy le_rfl "radius") fun _ _ ↦ .pure _
  · exact .pure _

theorem readUniformRadius?_failsBy (radius : Json) :
    FailsBy radius.Malformed (readUniformRadius? radius) := by
  cases radius with
  | int n => exact (ofIntChecked_failsBy n).map
  | _ => exact .ok _

theorem readCorners_failsBy {radii : List Json} (h : ∀ radius ∈ radii, radius.Malformed ≤ P) :
    FailsBy P (readCorners radii) := by
  have hcorner (i : Nat) : FailsBy P (radii.getD i (.int 0)).toNumber := by
    rw [List.getD_eq_getElem?_getD]
    cases hi : radii[i]? with
    | none => exact .ok _
    | some radius => exact toNumber_failsBy (h radius (List.mem_of_getElem? hi))
  refine .bind (hcorner 0) fun _ _ ↦ ?_
  refine .bind (hcorner 1) fun _ _ ↦ ?_
  refine .bind (hcorner 2) fun _ _ ↦ ?_
  refine .bind (hcorner 3) fun _ _ ↦ ?_
  split <;> exact .pure _

theorem readCornerRadius_failsBy (node : Attributes) :
    FailsBy node.Malformed (readCornerRadius node) := by
  refine .bind ((readUniformRadius?_failsBy _).mono (node.malformed_get _)) fun _ _ ↦ ?_
  split
  · exact .pure _
  · exact readCorners_failsBy fun radius hradius ↦
      (Json.malformed_of_mem_items hradius).trans (node.malformed_get _)

theorem readOverride_failsBy {style : Attributes} (h : style.Malformed ≤ P) (key : String)
    (base : Option Binary64) : FailsBy P (readOverride (style.get? key) base) := by
  cases hkey : style.get? key with
  | none => exact .ok _
  | some value =>
      have hvalue : value.Malformed ≤ P := (Attributes.malformed_get? hkey).trans h
      cases value with
      | null => exact .ok _
      | _ => exact (toNumber_failsBy hvalue).map

theorem readLetterSpacing_failsBy {style : Attributes} (h : style.Malformed ≤ P)
    (fontSize : Binary64) (base : Option Binary64) :
    FailsBy P (readLetterSpacing fontSize (style.get? "letterSpacing") base) := by
  rw [readLetterSpacing.eq_def]
  split
  · rename_i fields heq
    have hspacing : (⟨fields⟩ : Attributes).Malformed ≤ P := (Attributes.malformed_get? heq).trans h
    exact .bind (numberAt_failsBy hspacing "value") fun _ _ ↦ .pure _
  · exact readOverride_failsBy h "letterSpacing" base

theorem readTypography_failsBy {style : Attributes} (h : style.Malformed ≤ P) (base : Typography) :
    FailsBy P (readTypography style base) := by
  refine .bind (toNumberOr_failsBy ((style.malformed_get _).trans h) _) fun fontSize _ ↦ ?_
  refine .bind (readLetterSpacing_failsBy h fontSize _) fun _ _ ↦ ?_
  refine .bind (readOverride_failsBy h "fontWeight" _) fun _ _ ↦ ?_
  exact .bind (readOverride_failsBy h "lineHeightPx" _) fun _ _ ↦ .pure _

theorem readRunColor_failsBy {fills : List Attributes} (h : ∀ fill ∈ fills, fill.Malformed ≤ P) :
    FailsBy P (readRunColor fills) := by
  rw [readRunColor]
  split
  · rename_i fill hfill
    exact (readOwnColor_failsBy (h fill (List.mem_of_find?_eq_some hfill))).map
  · exact .ok _

theorem readRun_failsBy {table : Attributes} (h : table.Malformed ≤ P) (base : Typography)
    (key : Json) (text : List Char) : FailsBy P (readRun table base key text) := by
  rw [readRun]
  split
  · exact .ok _
  · rename_i override hoverride
    have hle : override.Malformed ≤ P := by
      rw [findOverride?] at hoverride
      split at hoverride
      · exact (Json.malformed_of_attributes? hoverride).trans ((table.malformed_get _).trans h)
      · exact nomatch hoverride
    have hcolor : FailsBy P (readRunColor (override.get "fills").objects) :=
      readRunColor_failsBy fun fill hfill ↦
        (Json.malformed_of_mem_objects hfill).trans ((override.malformed_get _).trans hle)
    dsimp only
    split
    · exact .bind (readTypography_failsBy hle base).map fun _ _ ↦ .bind hcolor fun _ _ ↦ .pure _
    · exact .bind (.pure none) fun _ _ ↦ .bind hcolor fun _ _ ↦ .pure _

theorem readRuns_failsBy (node : Attributes) (base : Typography) :
    FailsBy node.Malformed (readRuns node base) := by
  have htable := (Json.malformed_attributes _).trans (node.malformed_get "styleOverrideTable")
  rw [readRuns]
  split
  · exact .ok _
  · split
    · exact .mapM fun stretch _ ↦ readRun_failsBy htable base stretch.1 stretch.2
    · exact .ok _

theorem readStyle_failsBy (node : Attributes) (kind : NodeKind) :
    FailsBy node.Malformed (readStyle node kind) := by
  have hentry {key : String} {entry : Attributes} (h : entry ∈ (node.get key).objects) :
      entry.Malformed ≤ node.Malformed :=
    (Json.malformed_of_mem_objects h).trans (node.malformed_get key)
  refine .bind (readVisible_failsBy fun fill hfill ↦ (readFill_failsBy fill).mono (hentry hfill))
    fun _ _ ↦ ?_
  refine .bind (readVisible_failsBy fun stroke hstroke ↦ readStroke_failsBy (hentry hstroke))
    fun _ _ ↦ ?_
  refine .bind (readVisible_failsBy fun effect heffect ↦
    (readEffect_failsBy effect).mono (hentry heffect)) fun _ _ ↦ ?_
  refine .bind (readCornerRadius_failsBy node) fun _ _ ↦ ?_
  have hopacity := toNumberOr_failsBy (node.malformed_get "opacity") 1
  have htypography := readTypography_failsBy
    ((Json.malformed_attributes _).trans (node.malformed_get "style")) {}
  dsimp only
  split
  · exact .bind htypography.map fun _ _ ↦ .bind hopacity fun _ _ ↦ .pure _
  · exact .bind (.pure none) fun _ _ ↦ .bind hopacity fun _ _ ↦ .pure _

theorem readText_failsBy (node : Attributes) (kind : NodeKind) (typography : Option Typography) :
    FailsBy node.Malformed (readText node kind typography) := by
  rw [readText]
  split
  · exact .bind (readRuns_failsBy node _) fun _ _ ↦ .pure _
  · exact .pure _

theorem boundingBox?_malformed {node box : Attributes} (h : boundingBox? node = some box) :
    box.Malformed ≤ node.Malformed :=
  (Json.malformed_of_attributes? h).trans (node.malformed_get "absoluteBoundingBox")

theorem readPadding_failsBy (node : Attributes) : FailsBy node.Malformed (readPadding node) := by
  refine .bind (numberAt_failsBy le_rfl "paddingTop") fun _ _ ↦ ?_
  refine .bind (numberAt_failsBy le_rfl "paddingRight") fun _ _ ↦ ?_
  refine .bind (numberAt_failsBy le_rfl "paddingBottom") fun _ _ ↦ ?_
  exact .bind (numberAt_failsBy le_rfl "paddingLeft") fun _ _ ↦ .pure _

theorem readFlowBox_failsBy (node : Attributes) (direction : FlowDirection)
    (width height : Binary64) :
    FailsBy node.Malformed (readFlowBox node direction width height) :=
  .bind (numberAt_failsBy le_rfl "itemSpacing") fun _ _ ↦
    .bind (readPadding_failsBy node) fun _ _ ↦ .pure _

theorem readLayout_failsBy {node : Attributes} {parentBox : Option Attributes}
    (hnode : node.Malformed ≤ P) (hparent : ∀ box, parentBox = some box → box.Malformed ≤ P)
    (inFlow : Bool) : FailsBy P (readLayout node parentBox inFlow) := by
  have hbox : ((boundingBox? node).getD .empty).Malformed ≤ P := by
    cases h : boundingBox? node with
    | some box => exact (boundingBox?_malformed h).trans hnode
    | none => exact fun _ hempty ↦ absurd hempty Attributes.not_malformed_empty
  have hparentBox : (parentBox.getD .empty).Malformed ≤ P := by
    cases h : parentBox with
    | some box => exact hparent box h
    | none => exact fun _ hempty ↦ absurd hempty Attributes.not_malformed_empty
  have hrelative (key : String) :
      FailsBy P (relative key ((boundingBox? node).getD .empty) (parentBox.getD .empty)) :=
    .bind (numberAt_failsBy hbox key) fun _ _ ↦
      .bind (numberAt_failsBy hparentBox key) fun _ _ ↦ .pure _
  refine .bind (numberAt_failsBy hbox "width") fun _ _ ↦ ?_
  refine .bind (numberAt_failsBy hbox "height") fun _ _ ↦ ?_
  split
  · exact .bind ((readFlowBox_failsBy node _ _ _).mono hnode) fun _ _ ↦ .pure _
  · split
    · exact .pure _
    · exact .bind (hrelative "x") fun _ _ ↦ .bind (hrelative "y") fun _ _ ↦ .pure _

theorem readElement?_failsBy {node : Attributes} {parentBox : Option Attributes}
    (hnode : node.Malformed ≤ P) (hparent : ∀ box, parentBox = some box → box.Malformed ≤ P)
    (inFlow : Bool) : FailsBy P (readElement? node parentBox inFlow) := by
  rw [readElement?]
  split
  · exact .pure _
  · refine .bind ((readStyle_failsBy node _).mono hnode) fun _ _ ↦ ?_
    refine .bind ((readText_failsBy node _ _).mono hnode) fun _ _ ↦ ?_
    exact .bind (readLayout_failsBy hnode hparent inFlow) fun _ _ ↦ .pure _

end Design
end DesignToWeb
