import DesignToWeb.Design.Typography
import DesignToWeb.Proofs.Outcome

/-!
# Inherited type

A style object leaves to its base what it does not give.  Reading it over a base
that is read itself comes to the same as reading the two objects put together,
field by field, but for one field: letter spacing in per cent is a length once
it is read, and the base has read it by its own font size.
-/

namespace DesignToWeb

open Outcome

/-! ## Objects put together -/

/-- The fields of an object, and those of another one that it does not have. -/
def Attributes.over (own base : Attributes) : Attributes :=
  ⟨own.fields ++ base.fields.filter fun field ↦ (own.get? field.1).isNone⟩

theorem lookup_filter_key {α : Type} (p : String → Bool) {key : String} (h : p key = true)
    (pairs : List (String × α)) :
    (pairs.filter fun pair ↦ p pair.1).lookup key = pairs.lookup key := by
  induction pairs with
  | nil => rfl
  | cons pair pairs ih =>
      by_cases hkey : key = pair.1
      · have hkept : p pair.1 = true := hkey ▸ h
        rw [List.filter_cons, if_pos hkept, List.lookup_cons, List.lookup_cons, ih]
      · have hne : (key == pair.1) = false := beq_false_of_ne hkey
        rw [List.lookup_cons, hne, List.filter_cons]
        split
        · rw [List.lookup_cons, hne]
          exact ih
        · exact ih

theorem Attributes.get?_over (own base : Attributes) (key : String) :
    (own.over base).get? key = (own.get? key).or (base.get? key) := by
  rw [get?, Attributes.over, List.lookup_append]
  cases h : own.get? key with
  | some j =>
      rw [get?] at h
      rw [h]
      rfl
  | none =>
      have hnone : (own.get? key).isNone = true := by rw [h]; rfl
      rw [lookup_filter_key (fun key ↦ (own.get? key).isNone) hnone]
      rw [get?] at h
      rw [h]
      rfl

namespace Design

/-! ## What a style object gives -/

def finite? : Json → Option Binary64
  | .int n => if (Binary64.ofInt n).isFinite then some (Binary64.ofInt n) else none
  | .float x => if x.isFinite then some x else none
  | _ => none

/-- Letter spacing as it is given. -/
inductive Spacing where
  | length (value : Binary64)
  | percentage (value : Binary64)

def percentageOf (fontSize value : Binary64) : Binary64 := (fontSize * value).divNat 100

def Spacing.resolve (fontSize : Binary64) : Spacing → Binary64
  | length value => value
  | percentage value => percentageOf fontSize value

def Spacing.percentage? : Spacing → Option Binary64
  | length _ => none
  | percentage value => some value

/-- The letter spacing that a value is: a finite number, or an object with such a number and a
unit. -/
def spacing? : Json → Option Spacing
  | .obj fields => do
    let value ← finite? ((Attributes.mk fields).get "value")
    let unit ← ((Attributes.mk fields).get "unit").str?
    return if unit == "PERCENT" then .percentage value else .length value
  | j => (finite? j).map .length

def word? : Json → Option String
  | .str s => if s = "" then none else some s
  | _ => none

/-- Whether the fields for type that a style object has are well formed. -/
structure IsTypeStyle (style : Attributes) : Prop where
  numbers : ∀ key ∈ ["fontSize", "fontWeight", "lineHeightPx"],
    (style.get? key).all (fun j ↦ (finite? j).isSome) = true
  spacing : (style.get? "letterSpacing").all (fun j ↦ (spacing? j).isSome) = true
  words : ∀ key ∈ ["fontFamily", "textCase", "textDecoration", "textAlignHorizontal"],
    (style.get? key).all (fun j ↦ (word? j).isSome) = true

section Fields

variable {α : Type} {read : Json → Option α} {own base : Option Json}

theorem bind_or (h : own.all (fun j ↦ (read j).isSome) = true) :
    (own.or base).bind read = (own.bind read).or (base.bind read) := by
  cases own with
  | none => rfl
  | some j =>
      obtain ⟨a, ha⟩ := Option.isSome_iff_exists.mp h
      rw [Option.some_or, Option.bind_some, ha]
      rfl

theorem all_or {p : Json → Bool} (hown : own.all p = true) (hbase : base.all p = true) :
    (own.or base).all p = true := by
  cases own with
  | none => exact hbase
  | some j => exact hown

end Fields

theorem IsTypeStyle.over {own base : Attributes} (hown : IsTypeStyle own)
    (hbase : IsTypeStyle base) : IsTypeStyle (own.over base) where
  numbers key hkey := by
    rw [Attributes.get?_over]
    exact all_or (hown.numbers key hkey) (hbase.numbers key hkey)
  spacing := by
    rw [Attributes.get?_over]
    exact all_or hown.spacing hbase.spacing
  words key hkey := by
    rw [Attributes.get?_over]
    exact all_or (hown.words key hkey) (hbase.words key hkey)

/-! ## Reading single fields -/

section Readers

variable {j : Json} {x : Binary64}

theorem finite?_eq_some (h : finite? j = some x) :
    x.isFinite = true ∧ ((∃ n, j = .int n ∧ Binary64.ofInt n = x) ∨ j = .float x) := by
  unfold finite? at h
  split at h
  · next n =>
      obtain ⟨hfinite, hn⟩ := Option.ite_none_right_eq_some.mp h
      obtain rfl := Option.some.inj hn
      exact ⟨hfinite, Or.inl ⟨n, rfl, rfl⟩⟩
  · obtain ⟨hfinite, hx⟩ := Option.ite_none_right_eq_some.mp h
    obtain rfl := Option.some.inj hx
    exact ⟨hfinite, Or.inr rfl⟩
  · exact nomatch h

theorem isFinite_of_finite? (h : finite? j = some x) : x.isFinite = true := (finite?_eq_some h).1

theorem toNumberOr_of_finite? (h : finite? j = some x) (fallback : Binary64) :
    j.toNumberOr fallback = .ok x := by
  obtain ⟨hfinite, ⟨n, rfl, rfl⟩ | rfl⟩ := finite?_eq_some h
  · exact if_pos hfinite
  · exact congrArg Except.ok (if_pos hfinite)

theorem isFinite_of_length (h : spacing? j = some (.length x)) : x.isFinite = true := by
  unfold spacing? at h
  split at h
  · obtain ⟨value, hvalue, h⟩ := Option.bind_eq_some_iff.mp h
    obtain ⟨unit, hunit, h⟩ := Option.bind_eq_some_iff.mp h
    have h := Option.some.inj h
    split at h
    · exact nomatch h
    · exact Spacing.length.inj h ▸ isFinite_of_finite? hvalue
  · obtain ⟨value, hvalue, h⟩ := Option.map_eq_some_iff.mp h
    exact Spacing.length.inj h ▸ isFinite_of_finite? hvalue

theorem toNumberOr_field {field : Option Json} (h : field.all (fun j ↦ (finite? j).isSome) = true)
    (fallback : Binary64) :
    (field.getD .null).toNumberOr fallback = .ok ((field.bind finite?).getD fallback) := by
  cases field with
  | none => rfl
  | some j =>
      obtain ⟨x, hx⟩ := Option.isSome_iff_exists.mp h
      rw [Option.getD_some, Option.bind_some, hx]
      exact toNumberOr_of_finite? hx fallback

theorem readOverride_of_finite? (h : finite? j = some x) (base : Option Binary64) :
    readOverride (some j) base = .ok (some x) := by
  have hnumber := toNumberOr_of_finite? h 0
  cases j with
  | null => exact nomatch h
  | _ =>
      rw [readOverride, Json.toNumber, hnumber]
      · rfl
      · exact nofun

theorem readOverride_field {field : Option Json}
    (h : field.all (fun j ↦ (finite? j).isSome) = true) (base : Option Binary64) :
    readOverride field base = .ok ((field.bind finite?).or (base.map (·.finiteOr 0))) := by
  cases field with
  | none => rfl
  | some j =>
      obtain ⟨x, hx⟩ := Option.isSome_iff_exists.mp h
      rw [readOverride_of_finite? hx, Option.bind_some, hx]
      rfl

theorem str_of_str? {s : String} (h : j.str? = some s) : j = .str s := by
  cases j with
  | str t => exact congrArg Json.str (Option.some.inj h)
  | _ => exact nomatch h

theorem readLetterSpacing_of_spacing? {spacing : Spacing} (h : spacing? j = some spacing)
    (fontSize : Binary64) (base : Option Binary64) :
    readLetterSpacing fontSize (some j) base = .ok (some (spacing.resolve fontSize)) := by
  unfold spacing? at h
  split at h
  · next fields =>
      obtain ⟨value, hvalue, h⟩ := Option.bind_eq_some_iff.mp h
      obtain ⟨unit, hunit, h⟩ := Option.bind_eq_some_iff.mp h
      have hnumber := toNumberOr_of_finite? hvalue 0
      rw [readLetterSpacing, Json.toNumber, hnumber, str_of_str? hunit, ← Option.some.inj h]
      cases hpercent : unit == "PERCENT" with
      | true =>
          simp [Json.isStr, hpercent, Spacing.resolve, percentageOf, bind, Except.bind, pure,
            Except.pure]
      | false =>
          simp [Json.isStr, hpercent, Spacing.resolve, bind, Except.bind, pure, Except.pure]
  · next hobj =>
      obtain ⟨x, hx, rfl⟩ := Option.map_eq_some_iff.mp h
      rw [readLetterSpacing]
      · exact readOverride_of_finite? hx base
      · rintro fields ⟨⟩
        exact hobj fields rfl

theorem readLetterSpacing_field {field : Option Json}
    (h : field.all (fun j ↦ (spacing? j).isSome) = true) (fontSize : Binary64)
    (base : Option Binary64) :
    readLetterSpacing fontSize field base =
      .ok (((field.bind spacing?).map (·.resolve fontSize)).or (base.map (·.finiteOr 0))) := by
  cases field with
  | none => rfl
  | some j =>
      obtain ⟨spacing, hspacing⟩ := Option.isSome_iff_exists.mp h
      rw [readLetterSpacing_of_spacing? hspacing, Option.bind_some, hspacing]
      rfl

theorem labelOr_field {field : Option Json} (h : field.all (fun j ↦ (word? j).isSome) = true)
    (fallback : String) :
    (field.getD .null).labelOr fallback = (field.bind word?).getD fallback := by
  cases field with
  | none => rfl
  | some j =>
      obtain ⟨s, hs⟩ := Option.isSome_iff_exists.mp h
      rw [Option.getD_some, Option.bind_some, hs]
      unfold word? at hs
      split at hs
      · next t =>
          split at hs
          · exact nomatch hs
          · next hne =>
              rw [← Option.some.inj hs]
              exact if_pos (bne_iff_ne.mpr hne)
      · exact nomatch hs

end Readers

/-! ## Reading type -/

def given {α : Type} (read : Json → Option α) (style : Attributes) (key : String) : Option α :=
  (style.get? key).bind read

/-- The type that a style object with well-formed fields comes to over a base. -/
def typeOver (style : Attributes) (base : Typography) : Typography :=
  let fontSize := (given finite? style "fontSize").getD base.fontSize
  { fontFamily := (given word? style "fontFamily").getD base.fontFamily
    fontSize
    fontWeight := (given finite? style "fontWeight").or (base.fontWeight.map (·.finiteOr 0))
    lineHeight := (given finite? style "lineHeightPx").or (base.lineHeight.map (·.finiteOr 0))
    letterSpacing := ((given spacing? style "letterSpacing").map (·.resolve fontSize)).or
      (base.letterSpacing.map (·.finiteOr 0))
    textCase := (given word? style "textCase").getD base.textCase
    textDecoration := (given word? style "textDecoration").getD base.textDecoration
    textAlign := (given word? style "textAlignHorizontal").getD base.textAlign }

theorem readTypography_eq {style : Attributes} (h : IsTypeStyle style) (base : Typography) :
    readTypography style base = .ok (typeOver style base) := by
  have hsize := toNumberOr_field (h.numbers "fontSize" (by decide)) base.fontSize
  have hweight := readOverride_field (h.numbers "fontWeight" (by decide)) base.fontWeight
  have hlineHeight := readOverride_field (h.numbers "lineHeightPx" (by decide)) base.lineHeight
  have hspacing (fontSize : Binary64) :=
    readLetterSpacing_field h.spacing fontSize base.letterSpacing
  have hword (key : String)
      (hkey : key ∈ ["fontFamily", "textCase", "textDecoration", "textAlignHorizontal"])
      (fallback : String) :
      (style.get key).labelOr fallback = (given word? style key).getD fallback :=
    labelOr_field (h.words key hkey) fallback
  unfold readTypography
  rw [Attributes.get, hsize, hword "fontFamily" (by decide), hword "textCase" (by decide),
    hword "textDecoration" (by decide), hword "textAlignHorizontal" (by decide)]
  simp only [bind, Except.bind, hspacing, hweight, hlineHeight]
  rfl

/-! ## Inheriting -/

section Inheriting

variable {style base : Attributes}

theorem given_over {α : Type} {read : Json → Option α} {key : String}
    (h : (style.get? key).all (fun j ↦ (read j).isSome) = true) :
    given read (style.over base) key = (given read style key).or (given read base key) := by
  rw [given, Attributes.get?_over, bind_or h]
  rfl

theorem map_finiteOr_given (style : Attributes) (key : String) :
    (given finite? style key).map (·.finiteOr 0) = given finite? style key := by
  cases hx : given finite? style key with
  | none => rfl
  | some x =>
      obtain ⟨j, _, hj⟩ := Option.bind_eq_some_iff.mp hx
      exact congrArg some (if_pos (isFinite_of_finite? hj))

/-- A number that may be missing comes to the same by way of the base. -/
theorem number_over {key : String}
    (h : (style.get? key).all (fun j ↦ (finite? j).isSome) = true) :
    (given finite? style key).or (((given finite? base key).or none).map (·.finiteOr 0)) =
      (given finite? (style.over base) key).or none := by
  rw [given_over h, Option.or_none, Option.or_none, map_finiteOr_given]

theorem getD_over {α : Type} {read : Json → Option α} {key : String}
    (h : (style.get? key).all (fun j ↦ (read j).isSome) = true) (fallback : α) :
    (given read style key).getD ((given read base key).getD fallback) =
      (given read (style.over base) key).getD fallback := by
  rw [given_over h, Option.getD_or]

/-- The percentage that the letter spacing of a base is, where a style object leaves the spacing to
the base. -/
def inheritedPercentage? (style base : Attributes) : Option Binary64 :=
  if (style.get? "letterSpacing").isSome then none
  else (given spacing? base "letterSpacing").bind Spacing.percentage?

theorem fontSize_over (h : IsTypeStyle style) :
    (typeOver style (typeOver base {})).fontSize = (typeOver (style.over base) {}).fontSize :=
  getD_over (h.numbers "fontSize" (by decide)) _

/-- All but the letter spacing comes to the same by way of the base. -/
theorem typeOver_over (h : IsTypeStyle style) :
    typeOver style (typeOver base {}) =
      { typeOver (style.over base) {} with
        letterSpacing := (typeOver style (typeOver base {})).letterSpacing } := by
  have hword (key : String)
      (hkey : key ∈ ["fontFamily", "textCase", "textDecoration", "textAlignHorizontal"])
      (fallback : String) :
      (given word? style key).getD ((given word? base key).getD fallback) =
        (given word? (style.over base) key).getD fallback := getD_over (h.words key hkey) fallback
  refine Typography.mk.injEq .. |>.mpr ⟨hword _ (by decide) _, fontSize_over h,
    number_over (h.numbers _ (by decide)), number_over (h.numbers _ (by decide)), rfl,
    hword _ (by decide) _, hword _ (by decide) _, hword _ (by decide) _⟩

/-- A spacing that is left to the base is that of the base, resolved by the font size of the base on
the one way and by that of both objects together on the other. -/
theorem letterSpacing_of_none (base : Attributes) (h : style.get? "letterSpacing" = none) :
    (typeOver style (typeOver base {})).letterSpacing =
        (given spacing? base "letterSpacing").map
          (fun spacing ↦ (spacing.resolve (typeOver base {}).fontSize).finiteOr 0) ∧
      (typeOver (style.over base) {}).letterSpacing =
        (given spacing? base "letterSpacing").map
          (·.resolve (typeOver (style.over base) {}).fontSize) := by
  have hgiven : given spacing? style "letterSpacing" = none := by
    rw [given, h]
    rfl
  have hover : given spacing? (style.over base) "letterSpacing" =
      given spacing? base "letterSpacing" := by
    rw [given_over (by rw [h]; rfl), hgiven, Option.none_or]
  constructor
  · change ((given spacing? style "letterSpacing").map _).or
      (((((given spacing? base "letterSpacing").map _)).or none).map _) = _
    rw [hgiven, Option.map_none, Option.none_or, Option.or_none, Option.map_map]
    rfl
  · change ((given spacing? (style.over base) "letterSpacing").map _).or none = _
    rw [hover, Option.or_none]
    rfl

theorem letterSpacing_over (h : IsTypeStyle style)
    (hnone : inheritedPercentage? style base = none) :
    (typeOver style (typeOver base {})).letterSpacing =
      (typeOver (style.over base) {}).letterSpacing := by
  cases hstyle : style.get? "letterSpacing" with
  | some j =>
      -- the spacing of the style is resolved by the same size on both ways
      have hspacing := h.spacing
      rw [hstyle] at hspacing
      obtain ⟨spacing, hj⟩ := Option.isSome_iff_exists.mp hspacing
      have hgiven : given spacing? style "letterSpacing" = some spacing := by
        rw [given, hstyle]
        exact hj
      have hover : given spacing? (style.over base) "letterSpacing" = some spacing := by
        rw [given_over h.spacing, hgiven, Option.some_or]
      change ((given spacing? style "letterSpacing").map _).or _ =
        ((given spacing? (style.over base) "letterSpacing").map _).or _
      rw [hgiven, hover, Option.map_some, Option.map_some, Option.some_or, Option.some_or]
      exact congrArg (fun fontSize ↦ some (spacing.resolve fontSize)) (fontSize_over h)
  | none =>
      obtain ⟨hown, hmerged⟩ := letterSpacing_of_none base hstyle
      rw [inheritedPercentage?, hstyle] at hnone
      rw [hown, hmerged]
      refine Option.map_congr fun spacing hspacing ↦ ?_
      cases spacing with
      | length x =>
          -- a length needs no size
          obtain ⟨j, _, hj⟩ := Option.bind_eq_some_iff.mp hspacing
          exact if_pos (isFinite_of_length hj)
      | percentage value =>
          -- here the two ways would part, so this is the case that is left out
          change (given spacing? base "letterSpacing").bind Spacing.percentage? = none at hnone
          rw [hspacing] at hnone
          exact nomatch hnone

theorem given_of_inheritedPercentage? {value : Binary64}
    (h : inheritedPercentage? style base = some value) :
    style.get? "letterSpacing" = none ∧
      given spacing? base "letterSpacing" = some (.percentage value) := by
  unfold inheritedPercentage? at h
  split at h
  · exact nomatch h
  · next hstyle =>
      obtain ⟨spacing, hspacing, hvalue⟩ := Option.bind_eq_some_iff.mp h
      refine ⟨Option.not_isSome_iff_eq_none.mp hstyle, ?_⟩
      cases spacing with
      | length x => exact nomatch hvalue
      | percentage x => rw [hspacing, Option.some.inj hvalue]

end Inheriting

/-- Reading a style object over a base that is read itself comes to the same as reading the fields
of both at once, but for letter spacing that the base gives in per cent and the style object does
not give: the base has resolved it by its own font size. -/
theorem readTypography_over {style base : Attributes} (hstyle : IsTypeStyle style)
    (hbase : IsTypeStyle base) :
    ∃ inherited own merged, readTypography base {} = .ok inherited ∧
      readTypography style inherited = .ok own ∧
      readTypography (style.over base) {} = .ok merged ∧
      own = { merged with letterSpacing := own.letterSpacing } ∧
      (inheritedPercentage? style base = none → own = merged) ∧
      ∀ value, inheritedPercentage? style base = some value →
        merged.letterSpacing = some (percentageOf merged.fontSize value) ∧
        ((percentageOf inherited.fontSize value).isFinite = true →
          own.letterSpacing = some (percentageOf inherited.fontSize value)) := by
  refine ⟨_, _, _, readTypography_eq hbase {}, readTypography_eq hstyle _,
    readTypography_eq (hstyle.over hbase) {}, typeOver_over hstyle, fun hnone ↦ ?_,
    fun value hvalue ↦ ?_⟩
  · rw [typeOver_over hstyle, letterSpacing_over hstyle hnone]
  · obtain ⟨hnone, hgiven⟩ := given_of_inheritedPercentage? hvalue
    obtain ⟨hown, hmerged⟩ := letterSpacing_of_none base hnone
    rw [hgiven] at hown hmerged
    exact ⟨hmerged, fun hfinite ↦ hown.trans (congrArg some (if_pos hfinite))⟩

/-- A style with a spacing of a tenth of its font size. -/
def airy : Attributes :=
  ⟨[("fontSize", .int 10), ("fontFamily", .str "Inter"),
    ("letterSpacing", .obj [("value", .int 10), ("unit", .str "PERCENT")])]⟩

/-- A style in twice that size. -/
def large : Attributes := ⟨[("fontSize", .int 20), ("textCase", .str "UPPER")]⟩

theorem isTypeStyle_airy : IsTypeStyle airy := by
  constructor <;> decide +kernel

theorem isTypeStyle_large : IsTypeStyle large := by
  constructor <;> decide +kernel

theorem readTypography_over_airy :
    IsTypeStyle large ∧ IsTypeStyle airy ∧ inheritedPercentage? airy large = none ∧
      ∃ inherited own, readTypography large {} = .ok inherited ∧
        readTypography airy inherited = .ok own ∧
        readTypography (airy.over large) {} = .ok own := by
  refine ⟨isTypeStyle_large, isTypeStyle_airy, by decide +kernel, ?_⟩
  obtain ⟨inherited, own, merged, hinherited, hown, hmerged, _, hsame, _⟩ :=
    readTypography_over isTypeStyle_airy isTypeStyle_large
  exact ⟨inherited, own, hinherited, hown, hsame (by decide +kernel) ▸ hmerged⟩

/-- The larger style over the spaced one keeps a spacing of one pixel, a tenth of the smaller size;
both objects together give two. -/
theorem not_readTypography_over :
    ¬ ∀ style base : Attributes, IsTypeStyle style → IsTypeStyle base →
      ∃ inherited own, readTypography base {} = .ok inherited ∧
        readTypography style inherited = .ok own ∧
        readTypography (style.over base) {} = .ok own := by
  intro h
  obtain ⟨inherited, own, hinherited, hown, hmerged⟩ :=
    h large airy isTypeStyle_large isTypeStyle_airy
  obtain rfl := Except.ok.inj (hinherited.symm.trans (readTypography_eq isTypeStyle_airy {}))
  have hown := hown.symm.trans (readTypography_eq isTypeStyle_large _)
  have hmerged := hmerged.symm.trans
    (readTypography_eq (isTypeStyle_large.over isTypeStyle_airy) {})
  have hspacing := congrArg Typography.letterSpacing
    ((Except.ok.inj hown).symm.trans (Except.ok.inj hmerged))
  revert hspacing
  decide +kernel

end Design
end DesignToWeb
