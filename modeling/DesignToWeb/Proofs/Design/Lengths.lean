import DesignToWeb.Proofs.Css.Lengths
import DesignToWeb.Proofs.Css.Overflow
import DesignToWeb.Proofs.Design.Finiteness
import DesignToWeb.Proofs.Design.Runs
import DesignToWeb.Proofs.Design.Walk

/-!
# Lengths that are given

No length is below zero by itself: the ones that an element has in place of missing
numbers are not, so a negative one is the number of a field of its node.
-/

namespace DesignToWeb.Design

open Outcome

/-! ## The fields of lengths -/

/-- The fields of a style object that lengths are read from. -/
def typeFields (style : Attributes) : List Json := [style.get "fontSize", style.get "lineHeightPx"]

/-- The fields of a node that lengths are read from. -/
def lengthFields (node : Attributes) : List Json :=
  ["width", "height"].map ((boundingBox? node).getD .empty).get ++
    ["itemSpacing", "paddingTop", "paddingRight", "paddingBottom", "paddingLeft",
      "cornerRadius"].map node.get ++
    (node.get "rectangleCornerRadii").items ++
    (node.get "strokes").objects.map (strokeWeight node) ++
    (node.get "effects").objects.map (·.get "radius") ++
    typeFields (node.get "style").attributes ++ (overrides node).flatMap typeFields

/-- Whether a number is that of some field, unless it is not negative. -/
def IsGiven (fields : List Json) (x : Binary64) : Prop :=
  x.lt 0 = true → ∃ field ∈ fields, field.toNumber = .ok x

/-- Whether the negative ones among some numbers are given by a node. -/
def AllGiven (node : Attributes) (xs : List Binary64) : Prop :=
  ∀ x ∈ xs, IsGiven (lengthFields node) x

section Given

variable {node : Attributes} {x : Binary64} {xs ys : List Binary64}

theorem IsGiven.ofNotNegative {fields : List Json} (h : x.lt 0 = false) : IsGiven fields x :=
  fun hnegative ↦ Bool.noConfusion (h.symm.trans hnegative)

theorem allGiven_nil : AllGiven node [] := fun _ h ↦ absurd h List.not_mem_nil

theorem allGiven_cons : AllGiven node (x :: xs) ↔
    IsGiven (lengthFields node) x ∧ AllGiven node xs :=
  List.forall_mem_cons

theorem allGiven_append : AllGiven node (xs ++ ys) ↔ AllGiven node xs ∧ AllGiven node ys :=
  List.forall_mem_append

theorem AllGiven.singleton (h : IsGiven (lengthFields node) x) : AllGiven node [x] :=
  allGiven_cons.mpr ⟨h, allGiven_nil⟩

end Given

theorem toNumberOr_isGiven {fields : List Json} {field : Json} (hfield : field ∈ fields)
    {fallback : Binary64} (hfallback : IsGiven fields fallback) :
    Ensures (IsGiven fields) (field.toNumberOr fallback) := by
  intro x hx
  rcases toNumberOr_cases hx with ⟨rfl, _⟩ | hx
  · exact hfallback
  · exact fun _ ↦ ⟨field, hfield, hx⟩

theorem isGiven_zero {fields : List Json} : IsGiven fields 0 := .ofNotNegative rfl

theorem toNumber_isGiven {fields : List Json} {field : Json} (hfield : field ∈ fields) :
    Ensures (IsGiven fields) field.toNumber :=
  toNumberOr_isGiven hfield isGiven_zero

/-! ## Layouts -/

section Fields

variable {node : Attributes}

theorem boxField_mem {key : String} (h : key ∈ ["width", "height"]) :
    ((boundingBox? node).getD .empty).get key ∈ lengthFields node := by
  unfold lengthFields
  simp only [List.append_assoc]
  exact List.mem_append_left _ (List.mem_map_of_mem h)

theorem ownField_mem {key : String} (h : key ∈ ["itemSpacing", "paddingTop", "paddingRight",
    "paddingBottom", "paddingLeft", "cornerRadius"]) : node.get key ∈ lengthFields node := by
  unfold lengthFields
  simp only [List.append_assoc]
  exact List.mem_append_right _ (List.mem_append_left _ (List.mem_map_of_mem h))

theorem ownField_isGiven {key : String} (h : key ∈ ["itemSpacing", "paddingTop", "paddingRight",
    "paddingBottom", "paddingLeft", "cornerRadius"]) :
    Ensures (IsGiven (lengthFields node)) (node.get key).toNumber :=
  toNumber_isGiven (ownField_mem h)

end Fields

theorem readFlowBox_allGiven (node : Attributes) (direction : FlowDirection)
    {width height : Binary64} (hwidth : IsGiven (lengthFields node) width)
    (hheight : IsGiven (lengthFields node) height) :
    Ensures (fun box ↦ AllGiven node (Layout.flow box).numbers)
      (readFlowBox node direction width height) := by
  have hextent : AllGiven node (if height.isZero then Extent.auto else .length height).numbers := by
    split
    · exact allGiven_nil
    · exact .singleton hheight
  have hpadding : Ensures (AllGiven node ·.numbers) (readPadding node) := by
    refine .bind (ownField_isGiven (by decide)) fun top htop ↦ ?_
    refine .bind (ownField_isGiven (by decide)) fun right hright ↦ ?_
    refine .bind (ownField_isGiven (by decide)) fun bottom hbottom ↦ ?_
    refine .bind (ownField_isGiven (by decide)) fun left hleft ↦ .pure ?_
    simp [AllGiven, Padding.numbers, htop, hright, hbottom, hleft]
  refine .bind (ownField_isGiven (by decide)) fun gap hgap ↦ ?_
  refine .bind hpadding fun padding hpadding ↦ ?_
  refine .pure (allGiven_cons.mpr ⟨hgap, allGiven_append.mpr ⟨?_, hextent⟩⟩)
  exact allGiven_append.mpr ⟨hpadding, .singleton hwidth⟩

theorem readLayout_allGiven (node : Attributes) (parentBox : Option Attributes) (inFlow : Bool) :
    Ensures (fun layout ↦ AllGiven node layout.numbers) (readLayout node parentBox inFlow) := by
  refine .bind (toNumber_isGiven (boxField_mem (by decide))) fun width hwidth ↦ ?_
  refine .bind (toNumber_isGiven (boxField_mem (by decide))) fun height hheight ↦ ?_
  have hsizes : AllGiven node [width, height] := allGiven_cons.mpr ⟨hwidth, .singleton hheight⟩
  split
  · exact .bind (readFlowBox_allGiven node _ hwidth hheight) fun _ hbox ↦ .pure hbox
  · split
    · exact .pure hsizes
    · exact .after fun _ ↦ .after fun _ ↦ .pure hsizes

/-! ## Strokes, shadows and corners -/

theorem readStroke_width (node paint : Attributes) :
    Ensures (DrawnIs fun stroke ↦ (strokeWeight node paint).toNumberOr 1 = .ok stroke.width)
      (readStroke node paint) := by
  refine .bind (fun width hwidth ↦ hwidth) fun width hwidth ↦ .after fun dashes ↦ ?_
  dsimp only
  split
  · exact .after fun color ↦ .pure (.drawn hwidth)
  · split
    · exact .after fun stops ↦ .after fun heading ↦ .pure (.drawn hwidth)
    · exact .pure (.unsupported _)

theorem readEffect_blur (effect : Attributes) :
    Ensures (DrawnIs fun e ↦ ∀ s, e.shadow? = some s →
      (effect.get "radius").toNumber = .ok s.blur) (readEffect effect) := by
  have hshadow (inset : Bool) : Ensures (fun s ↦ (effect.get "radius").toNumber = .ok s.blur)
      (readShadow inset effect) :=
    .after fun x ↦ .after fun y ↦ .bind (fun blur hblur ↦ hblur) fun blur hblur ↦
      .after fun spread ↦ .after fun color ↦ .pure hblur
  rw [readEffect]
  split
  · refine .bind (hshadow false) fun s hs ↦ .pure (.drawn fun t ht ↦ ?_)
    rwa [← Option.some.inj ht]
  · refine .bind (hshadow true) fun s hs ↦ .pure (.drawn fun t ht ↦ ?_)
    rwa [← Option.some.inj ht]
  · exact .after fun _ ↦ .pure (.drawn fun t ht ↦ absurd ht.symm (Option.some_ne_none t))
  · exact .after fun _ ↦ .pure (.drawn fun t ht ↦ absurd ht.symm (Option.some_ne_none t))
  · exact .pure (.unsupported _)

/-- A radius for all corners is a number as it stands. -/
theorem readUniformRadius?_isGiven {fields : List Json} {field : Json} (hfield : field ∈ fields) :
    Ensures (fun radius ↦ ∀ x, radius = some x → IsGiven fields x) (readUniformRadius? field) := by
  cases field with
  | int n =>
      refine .map (toNumber_isGiven hfield) fun x hx y hy ↦ ?_
      rwa [← Option.some.inj hy]
  | float x =>
      refine .ok fun y hy ↦ ?_
      split at hy
      · next hfinite =>
          rw [← Option.some.inj hy]
          exact fun _ ↦ ⟨_, hfield, congrArg Except.ok (if_pos hfinite)⟩
      · exact nomatch hy
  | _ => exact .ok fun y hy ↦ absurd hy.symm (Option.some_ne_none y)

theorem readCornerRadius_allGiven (node : Attributes) :
    Ensures (fun corners ↦ AllGiven node (corners.toList.flatMap CornerRadius.numbers))
      (readCornerRadius node) := by
  have hcorner (i : Nat) : Ensures (IsGiven (lengthFields node))
      ((node.get "rectangleCornerRadii").items.getD i (.int 0)).toNumber := by
    rw [List.getD_eq_getElem?_getD]
    cases hitem : (node.get "rectangleCornerRadii").items[i]? with
    | none => exact .ok isGiven_zero
    | some item =>
        refine toNumber_isGiven ?_
        simp [lengthFields, List.mem_of_getElem? hitem]
  refine .bind (readUniformRadius?_isGiven (ownField_mem (by decide))) fun radius hradius ↦ ?_
  cases radius with
  | some radius => exact .pure (.singleton (hradius radius rfl))
  | none => exact readCorners_all hcorner

/-! ## Type -/

theorem readOverride_isGiven {fields : List Json} {style : Attributes} {key : String}
    (hfield : style.get key ∈ fields) {base : Option Binary64}
    (hbase : ∀ x, base = some x → IsGiven fields x) :
    Ensures (fun number ↦ ∀ x, number = some x → IsGiven fields x)
      (readOverride (style.get? key) base) := by
  rw [readOverride.eq_def]
  split
  · refine .ok fun x hx ↦ ?_
    obtain ⟨y, hy, rfl⟩ := Option.map_eq_some_iff.mp hx
    unfold Binary64.finiteOr
    split
    · exact hbase y hy
    · exact isGiven_zero
  · exact .ok fun x hx ↦ absurd hx.symm (Option.some_ne_none x)
  · next j _ hj =>
      rw [Attributes.get, hj] at hfield
      refine .map (toNumber_isGiven hfield) fun y hy x hx ↦ ?_
      rwa [← Option.some.inj hx]

/-- What a style object does not give is taken from its base. -/
theorem readTypography_allGiven {node style : Attributes} {base : Typography}
    (hstyle : typeFields style ⊆ lengthFields node) (hbase : AllGiven node base.lengths) :
    Ensures (fun t ↦ AllGiven node t.lengths) (readTypography style base) := by
  obtain ⟨hsize, hlineHeight⟩ := allGiven_cons.mp hbase
  refine .bind (toNumberOr_isGiven (hstyle List.mem_cons_self) hsize) fun fontSize hsize ↦ ?_
  have hfield : style.get "lineHeightPx" ∈ lengthFields node := hstyle (by simp [typeFields])
  have hlineHeight := readOverride_isGiven hfield fun x hx ↦
    hlineHeight x (Option.mem_toList.mpr hx)
  refine .after fun spacing ↦ .after fun weight ↦ .bind hlineHeight fun lineHeight hlineHeight ↦ ?_
  exact .pure (allGiven_cons.mpr ⟨hsize, fun x hx ↦ hlineHeight x (Option.mem_toList.mp hx)⟩)

theorem allGiven_default (node : Attributes) : AllGiven node ({} : Typography).lengths :=
  .singleton (.ofNotNegative (by decide +kernel))

theorem allGiven_lengthsOfType {node : Attributes} {t? : Option Typography}
    (h : ∀ t, t? = some t → AllGiven node t.lengths) : AllGiven node (Css.lengthsOfType t?) := by
  intro x hx
  obtain ⟨t, ht, hx⟩ := List.mem_flatMap.mp hx
  exact h t (Option.mem_toList.mp ht) x hx

theorem readStyle_typography (node : Attributes) (kind : NodeKind) :
    Ensures (fun read ↦ ∀ t, read.1.typography = some t → AllGiven node t.lengths)
      (readStyle node kind) := by
  have hfields : typeFields (node.get "style").attributes ⊆ lengthFields node := by
    intro field hfield
    simp [lengthFields, hfield]
  have htypography := readTypography_allGiven hfields (allGiven_default node)
  refine .after fun fills ↦ .after fun strokes ↦ .after fun effects ↦ .after fun corners ↦ ?_
  dsimp only
  split
  · have hsome : Ensures (fun t? ↦ ∀ t, t? = some t → AllGiven node t.lengths)
        (some <$> readTypography (node.get "style").attributes {}) :=
      .map htypography fun t ht u hu ↦ by rwa [← Option.some.inj hu]
    exact .bind hsome fun _ h ↦ .after fun _ ↦ .pure h
  · have hnone : Ensures (fun t? ↦ ∀ t, t? = some t → AllGiven node t.lengths)
        (pure none : Except Fault (Option Typography)) :=
      .pure fun t ht ↦ absurd ht.symm (Option.some_ne_none t)
    exact .bind hnone fun _ h ↦ .after fun _ ↦ .pure h

theorem readStyle_corners (node : Attributes) (kind : NodeKind) :
    Ensures (fun read ↦ AllGiven node (read.1.cornerRadius.toList.flatMap CornerRadius.numbers))
      (readStyle node kind) := by
  refine .after fun fills ↦ .after fun strokes ↦ .after fun effects ↦
    .bind (readCornerRadius_allGiven node) fun corners hcorners ↦ ?_
  dsimp only
  split
  · exact .after fun _ ↦ .after fun _ ↦ .pure hcorners
  · exact .after fun _ ↦ .after fun _ ↦ .pure hcorners

theorem readStyle_allGiven {node : Attributes} {kind : NodeKind} {style : Style}
    {warnings : List String} (h : readStyle node kind = .ok (style, warnings)) :
    AllGiven node (Css.lengthsOfBox style) ∧
      AllGiven node (Css.lengthsOfType style.typography) := by
  obtain ⟨fills, strokes, effects, _, hstrokes, heffects, _, hs, he, _⟩ := readStyle_eq_ok h
  refine ⟨allGiven_append.mpr ⟨allGiven_append.mpr ⟨?_, ?_⟩, readStyle_corners node kind _ h⟩,
    allGiven_lengthsOfType (readStyle_typography node kind _ h)⟩
  · -- a border is a stroke, whose width is its own or that of the node
    intro x hx
    unfold Css.borderWidths at hx
    split at hx
    · next stroke color hdrawn =>
        split at hx
        · obtain rfl := List.mem_singleton.mp hx
          have hmem := Css.mem_of_drawnStroke? hdrawn
          rw [hs] at hmem
          obtain ⟨paint, hpaint, hread⟩ := exists_drawn_of_mem hstrokes hmem
          have hwidth := readStroke_width node paint _ hread stroke rfl
          refine toNumberOr_isGiven ?_ (.ofNotNegative (by decide +kernel)) _ hwidth
          have hweight := List.mem_map_of_mem (f := strokeWeight node) hpaint
          simp [lengthFields, hweight]
        · exact absurd hx List.not_mem_nil
    · exact absurd hx List.not_mem_nil
  · -- the blurs of shadows are the radii of effects
    intro x hx
    obtain ⟨s, hs, rfl⟩ := List.mem_map.mp hx
    obtain ⟨effect, heffect, hs⟩ := List.mem_filterMap.mp hs
    rw [he] at heffect
    obtain ⟨entry, hentry, hread⟩ := exists_drawn_of_mem heffects heffect
    refine toNumber_isGiven ?_ _ (readEffect_blur entry _ hread effect rfl s hs)
    have hradius := List.mem_map_of_mem (f := (·.get "radius")) hentry
    simp only [lengthFields, List.mem_append]
    exact Or.inl (Or.inl (Or.inr hradius))

/-! ## Elements -/

theorem readText_allGiven {node : Attributes} {kind : NodeKind} {typography : Option Typography}
    {text : Option String} {runs : List TextRun}
    (hbase : AllGiven node (typography.getD {}).lengths)
    (h : readText node kind typography = .ok (text, runs)) :
    AllGiven node (runs.flatMap fun run ↦ Css.lengthsOfType run.typography) := by
  unfold readText at h
  split at h
  · obtain ⟨read, hread, h⟩ := bind_eq_ok.mp h
    obtain rfl := (Prod.mk.inj (pure_eq_ok.mp h)).2
    intro x hx
    obtain ⟨run, hrun, hx⟩ := List.mem_flatMap.mp hx
    refine allGiven_lengthsOfType (fun t ht ↦ ?_) x hx
    rcases exists_override_of_mem hread hrun with ⟨hplain, _⟩ | ⟨override, hoverride, hfrom⟩
    · exact nomatch ht.symm.trans hplain
    · refine readTypography_allGiven (fun field hfield ↦ ?_) hbase t (hfrom.typography t ht)
      exact List.mem_append_right _ (List.mem_flatMap.mpr ⟨override, hoverride, hfield⟩)
  · obtain rfl := (Prod.mk.inj (pure_eq_ok.mp h)).2
    exact allGiven_nil

/-- The negative lengths of an element are numbers that its node gives. -/
theorem Visit.Reads.allGiven {v : Visit} {c : Classified} (h : v.Reads c.element) :
    AllGiven v.node (Css.lengthsOf c) := by
  obtain ⟨warnings, hread⟩ := h
  obtain ⟨_, _, _, hstyle, htext, hlayout⟩ := readElement?_eq_some hread
  obtain ⟨hbox, htype⟩ := readStyle_allGiven hstyle
  have hlayout := readLayout_allGiven v.node _ _ _ hlayout
  have hbase : AllGiven v.node (c.element.style.typography.getD {}).lengths := by
    cases htypography : c.element.style.typography with
    | none => exact allGiven_default v.node
    | some t =>
        rw [htypography] at htype
        simpa [Css.lengthsOfType] using htype
  have hruns := readText_allGiven hbase htext
  refine allGiven_append.mpr ⟨allGiven_append.mpr ⟨hlayout, ?_⟩, ?_⟩
  · split
    · exact allGiven_nil
    · refine allGiven_append.mpr ⟨hbox, ?_⟩
      split
      · exact htype
      · exact allGiven_nil
  · unfold Css.runLengths
    split
    · exact hruns
    · exact allGiven_nil

end DesignToWeb.Design
