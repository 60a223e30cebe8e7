import DesignToWeb.Design.Typography
import DesignToWeb.Proofs.Css.Overflow
import DesignToWeb.Proofs.Drawing
import DesignToWeb.Proofs.Json.Label

/-!
# Type in spans

The block of a span leaves out what the block of its paragraph declares already, as the
span takes it over from there.  It takes over everything else too: where the type of
the paragraph declares a property and the type of the span does not, the span keeps
the value of the paragraph.
-/

namespace DesignToWeb.Css

open Outcome

/-! ## Declarations as a map -/

/-- The value that rules give to a property; of several the last one counts. -/
def declared (ds : List Declaration) (property : Property) : Option String :=
  (valuesOf property ds).getLast?

/-- The value of a property in a span, whose own rules come before those of its paragraph. -/
def cascaded (paragraph span : List Declaration) (property : Property) : Option String :=
  (declared span property).or (declared paragraph property)

theorem declared_append {property : Property} {ds ds' : List Declaration}
    (h : ∀ d ∈ ds, d.property ≠ property) : declared (ds ++ ds') property = declared ds' property := by
  rw [declared, valuesOf_append, valuesOf_eq_nil h]
  rfl

/-- Rules that name no property twice are the map that they are read as. -/
theorem declared_eq_some_iff {ds : List Declaration} (h : (ds.map Declaration.property).Nodup)
    {property : Property} {value : String} :
    declared ds property = some value ↔ ⟨property, value⟩ ∈ ds := by
  induction ds with
  | nil => simp [declared, valuesOf]
  | cons d ds ih =>
      obtain ⟨hd, hds⟩ := List.nodup_cons.mp h
      have ih := ih hds
      by_cases hproperty : d.property = property
      · -- no later declaration has this property, so the first of them is the last as well
        have hrest : valuesOf property ds = [] := by
          refine valuesOf_eq_nil fun d' hd' heq ↦ hd ?_
          exact List.mem_map.mpr ⟨d', hd', heq.trans hproperty.symm⟩
        have hvalues : valuesOf property (d :: ds) = [d.value] := by
          rw [valuesOf, List.filter_cons_of_pos (by simpa using hproperty), List.map_cons]
          exact congrArg (d.value :: ·) hrest
        have hnot : ⟨property, value⟩ ∉ ds := fun hmem ↦
          hd (List.mem_map.mpr ⟨_, hmem, hproperty.symm⟩)
        rw [declared, hvalues, List.mem_cons, or_iff_left hnot]
        cases d
        simp only [List.getLast?_singleton, Option.some.injEq, Declaration.mk.injEq]
        exact ⟨fun h ↦ ⟨hproperty.symm, h.symm⟩, fun h ↦ h.2.symm⟩
      · have hvalues : valuesOf property (d :: ds) = valuesOf property ds := by
          rw [valuesOf, List.filter_cons_of_neg (by simpa using hproperty)]
          rfl
        have hne : (⟨property, value⟩ : Declaration) ≠ d := by
          rintro rfl
          exact hproperty rfl
        rw [declared, hvalues, List.mem_cons, or_iff_right hne]
        exact ih

theorem declared_eq_none_iff {ds : List Declaration} {property : Property} :
    declared ds property = none ↔ property ∉ ds.map Declaration.property := by
  simp [declared, valuesOf]

/-! ## The properties of a type -/

/-- Whether a number is given and not zero. -/
def isOn (x : Option Binary64) : Bool := x.any (!·.isZero)

/-- Whether the rules of a type declare a property. -/
def writes (t : Typography) : Property → Bool
  | .fontFamily | .fontSize => true
  | .fontWeight => isOn t.fontWeight
  | .lineHeight => isOn t.lineHeight
  | .letterSpacing => isOn t.letterSpacing
  | .textAlign => t.textAlign != ""
  | .textDecoration => (textDecoration? t.textDecoration).isSome
  | .textTransform => (textTransform? t.textCase).isSome
  | _ => false

theorem properties_optional {property : Property} {write : Binary64 → Except Fault String}
    {x : Option Binary64} {ds : List Declaration} (h : optional property write x = .ok ds) :
    ds.map Declaration.property = if isOn x then [property] else [] := by
  unfold optional at h
  split at h
  · rw [← Except.ok.inj h]
    rfl
  · next x =>
      split at h
      · next hzero =>
          rw [← Except.ok.inj h]
          simp [isOn, hzero]
      · next hzero =>
          obtain ⟨text, _, h⟩ := bind_eq_ok.mp h
          rw [← pure_eq_ok.mp h]
          simp [isOn, hzero]

theorem properties_toList (property : Property) (value? : Option String) :
    ((value?.map (⟨property, ·⟩ : String → Declaration)).toList).map Declaration.property =
      if value?.isSome then [property] else [] := by
  cases value? <;> rfl

/-- Rules of a type are in one order, and there is one for each property that they declare. -/
theorem properties_typographyRules {t : Typography} {ds : List Declaration}
    (h : typographyRules t = .ok ds) :
    ds.map Declaration.property = (.fontFamily :: typeProperties).filter (writes t) := by
  obtain ⟨size, _, h⟩ := bind_eq_ok.mp h
  obtain ⟨weight, hweight, h⟩ := bind_eq_ok.mp h
  obtain ⟨lineHeight, hlineHeight, h⟩ := bind_eq_ok.mp h
  obtain ⟨letterSpacing, hletterSpacing, h⟩ := bind_eq_ok.mp h
  have halign : (if t.textAlign = "" then [] else
      [(⟨.textAlign, textAlign t.textAlign⟩ : Declaration)]).map Declaration.property =
        if t.textAlign != "" then [.textAlign] else [] := by
    by_cases halign : t.textAlign = "" <;> simp [halign]
  have hfilter (p : Property) (ps : List Property) :
      (p :: ps).filter (writes t) = (if writes t p then [p] else []) ++ ps.filter (writes t) := by
    rw [List.filter_cons]
    split <;> rfl
  rw [← pure_eq_ok.mp h]
  simp only [List.map_append, properties_optional hweight, properties_optional hlineHeight,
    properties_optional hletterSpacing, properties_toList, halign, typeProperties, hfilter, writes,
    List.filter_nil, List.append_nil, List.append_assoc]
  rfl

theorem nodup_properties {t : Typography} {ds : List Declaration} (h : typographyRules t = .ok ds) :
    (ds.map Declaration.property).Nodup := by
  rw [properties_typographyRules h]
  exact List.filter_sublist.nodup (by decide)

theorem declared_eq_none_iff_writes {t : Typography} {ds : List Declaration}
    (h : typographyRules t = .ok ds) (property : Property) :
    declared ds property = none ↔ writes t property = false := by
  rw [declared_eq_none_iff, properties_typographyRules h, List.mem_filter, not_and,
    Bool.not_eq_true]
  refine ⟨fun hnone ↦ ?_, fun hfalse _ ↦ hfalse⟩
  by_cases hmem : property ∈ .fontFamily :: typeProperties
  · exact hnone hmem
  · -- properties of other rules are written by no type
    revert hmem
    cases property <;> simp [typeProperties, writes]

/-! ## Spans -/

/-- The rules of a run with a type of its own are those of its colour and those of its type that the
paragraph has not. -/
theorem runRules_eq {run : TextRun} {b t : Typography} {base full : List Declaration}
    (hrun : run.typography = some t) (hbase : typographyRules b = .ok base)
    (hfull : typographyRules t = .ok full) :
    ∃ color, Declares [.color] color ∧
      runRules run (some b) = .ok (color ++ full.filter (!base.contains ·)) := by
  have hchanged : changedTypography t (some b) = .ok (full.filter (!base.contains ·)) := by
    rw [changedTypography, hbase, hfull]
    rfl
  unfold runRules
  rw [hrun]
  cases run.color with
  | none =>
      refine ⟨[], .nil, ?_⟩
      simp only [hchanged]
      rfl
  | some color =>
      obtain ⟨text, htext⟩ := returns_rgba color
      refine ⟨[⟨.color, text⟩], declares_singleton (madeOf_rgba htext), ?_⟩
      simp only [htext, hchanged]
      rfl

/-- What a span leaves out it takes over from its paragraph. -/
theorem cascaded_changed {b t : Typography} {base full : List Declaration}
    (hbase : typographyRules b = .ok base) (hfull : typographyRules t = .ok full)
    (property : Property) :
    cascaded base (full.filter (!base.contains ·)) property = cascaded base full property := by
  have hfilter : ((full.filter (!base.contains ·)).map Declaration.property).Nodup :=
    (List.filter_sublist.map _).nodup (nodup_properties hfull)
  unfold cascaded
  cases hown : declared full property with
  | none =>
      have hnone : declared (full.filter (!base.contains ·)) property = none := by
        rw [declared_eq_none_iff] at hown ⊢
        exact fun hmem ↦ hown ((List.filter_sublist.map _).subset hmem)
      rw [hnone]
  | some value =>
      have hmem := (declared_eq_some_iff (nodup_properties hfull)).mp hown
      by_cases hshared : ⟨property, value⟩ ∈ base
      · have hnone : declared (full.filter (!base.contains ·)) property = none := by
          rw [declared_eq_none_iff]
          intro hproperty
          obtain ⟨⟨_, value'⟩, hd, rfl⟩ := List.mem_map.mp hproperty
          obtain ⟨hd, hnot⟩ := List.mem_filter.mp hd
          -- the span declares the property once, with the value that the paragraph gives it
          have hsame := (declared_eq_some_iff (nodup_properties hfull)).mpr hd
          rw [hown] at hsame
          rw [← Option.some.inj hsame, List.contains_iff_mem.mpr hshared] at hnot
          exact Bool.noConfusion hnot
        rw [hnone, (declared_eq_some_iff (nodup_properties hbase)).mpr hshared]
        rfl
      · have hkept : (⟨property, value⟩ : Declaration) ∈ full.filter (!base.contains ·) :=
          List.mem_filter.mpr ⟨hmem, by simpa using hshared⟩
        rw [(declared_eq_some_iff hfilter).mpr hkept]

/-- A span shows its own type exactly if its type declares what that of its paragraph does. -/
theorem cascaded_eq_declared_iff {b t : Typography} {base full : List Declaration}
    (hbase : typographyRules b = .ok base) (hfull : typographyRules t = .ok full)
    (property : Property) :
    cascaded base full property = declared full property ↔
      (writes b property = true → writes t property = true) := by
  have hb := declared_eq_none_iff_writes hbase property
  have ht := declared_eq_none_iff_writes hfull property
  unfold cascaded
  cases hown : declared full property with
  | none =>
      rw [ht.mp hown, Option.none_or, hb]
      simp
  | some value =>
      have hwrites : writes t property = true := by
        rw [← Bool.not_eq_false, ← ht, hown]
        exact nofun
      simp [hwrites]

/-! ## Overrides -/

/-- The properties that a type may leave alone, whatever it was read from. -/
def optionalProperties : List Property :=
  [.fontWeight, .lineHeight, .letterSpacing, .textDecoration, .textTransform]

/-- An override cannot take away the alignment of its text. -/
theorem textAlign_ne_empty {override : Attributes} {b t : Typography}
    (h : Design.readTypography override b = .ok t) (hb : b.textAlign ≠ "") : t.textAlign ≠ "" := by
  obtain ⟨fontSize, _, h⟩ := bind_eq_ok.mp h
  obtain ⟨letterSpacing, _, h⟩ := bind_eq_ok.mp h
  obtain ⟨fontWeight, _, h⟩ := bind_eq_ok.mp h
  obtain ⟨lineHeight, _, h⟩ := bind_eq_ok.mp h
  rw [← pure_eq_ok.mp h]
  exact Json.labelOr_ne_empty hb _

theorem writes_of_notMem_optional {override : Attributes} {b t : Typography}
    (h : Design.readTypography override b = .ok t) {property : Property}
    (hproperty : property ∉ optionalProperties) (hb : writes b property = true) :
    writes t property = true := by
  cases property with
  | fontFamily | fontSize => rfl
  | textAlign => exact bne_iff_ne.mpr (textAlign_ne_empty h (bne_iff_ne.mp hb))
  | fontWeight | lineHeight | letterSpacing | textDecoration | textTransform =>
      exact absurd (by decide) hproperty
  | _ => exact Bool.noConfusion hb

/-- In a span the rules of a run do what all rules of its type would do, and this is the type of the
run itself exactly if the run does not leave alone what its paragraph declares. -/
theorem cascaded_runRules {override : Attributes} {b t : Typography}
    {base full : List Declaration} {run : TextRun}
    (ht : Design.readTypography override b = .ok t) (hrun : run.typography = some t)
    (hbase : typographyRules b = .ok base) (hfull : typographyRules t = .ok full) :
    ∃ own, runRules run (some b) = .ok own ∧
      (∀ property, property ≠ .color → cascaded base own property = cascaded base full property) ∧
      ((∀ property, property ≠ .color → cascaded base own property = declared full property) ↔
        ∀ property ∈ optionalProperties, writes b property = true → writes t property = true) := by
  obtain ⟨color, hcolor, hown⟩ := runRules_eq hrun hbase hfull
  -- the colour of a run is no part of its type, and takes no part in the cascade of the rest
  have hcascade : ∀ property, property ≠ .color →
      cascaded base (color ++ full.filter (!base.contains ·)) property =
        cascaded base full property := by
    intro property hproperty
    rw [← cascaded_changed hbase hfull property, cascaded, cascaded,
      declared_append (hcolor.notMem (by simpa using hproperty))]
  refine ⟨_, hown, hcascade, ?_⟩
  constructor
  · intro hsame property hmem
    have hproperty : property ≠ .color := by
      rintro rfl
      exact absurd hmem (by decide)
    rw [← cascaded_eq_declared_iff hbase hfull, ← hcascade property hproperty]
    exact hsame property hproperty
  · intro hwrites property hproperty
    rw [hcascade property hproperty, cascaded_eq_declared_iff hbase hfull]
    intro hb
    by_cases hmem : property ∈ optionalProperties
    · exact hwrites property hmem hb
    · exact writes_of_notMem_optional ht hmem hb

/-- The type of a paragraph with two pixels between its letters. -/
def spaced : Typography := { fontWeight := some 400, letterSpacing := some 2 }

def spacedRules : List Declaration :=
  [⟨.fontFamily, "'system-ui', system-ui, sans-serif"⟩, ⟨.fontSize, "14px"⟩, ⟨.fontWeight, "400"⟩,
    ⟨.letterSpacing, "2px"⟩, ⟨.textAlign, "left"⟩]

theorem typographyRules_spaced : typographyRules spaced = .ok spacedRules :=
  eq_ok_of_isOkWith (by decide +kernel)

def boldRun : TextRun :=
  { text := "bold", typography := some { fontWeight := some 700, letterSpacing := some 2 } }

/-- A run that overrides the spacing with none. -/
def tightRun : TextRun :=
  { text := "tight", typography := some { fontWeight := some 400, letterSpacing := some 0 } }

/-- The bold run is shown as its type says. -/
theorem cascaded_runRules_bold : ∃ t full own, boldRun.typography = some t ∧
    Design.readTypography ⟨[("fontWeight", .int 700)]⟩ spaced = .ok t ∧
    typographyRules t = .ok full ∧ runRules boldRun (some spaced) = .ok own ∧
    ∀ property, property ≠ .color → cascaded spacedRules own property = declared full property := by
  have hread : Design.readTypography ⟨[("fontWeight", .int 700)]⟩ spaced =
      .ok { fontWeight := some 700, letterSpacing := some 2 } :=
    eq_ok_of_isOkWith (by decide +kernel)
  have hfull : typographyRules { fontWeight := some 700, letterSpacing := some 2 } =
      .ok [⟨.fontFamily, "'system-ui', system-ui, sans-serif"⟩, ⟨.fontSize, "14px"⟩,
        ⟨.fontWeight, "700"⟩, ⟨.letterSpacing, "2px"⟩, ⟨.textAlign, "left"⟩] :=
    eq_ok_of_isOkWith (by decide +kernel)
  have hrun : boldRun.typography = some { fontWeight := some 700, letterSpacing := some 2 } := rfl
  obtain ⟨own, hown, _, hshown⟩ := cascaded_runRules hread hrun typographyRules_spaced hfull
  exact ⟨_, _, own, hrun, hread, hfull, hown, hshown.mpr (by decide +kernel)⟩

/-- The tight run has no rules, and is shown with the spacing of its paragraph. -/
theorem not_cascaded_runRules_tight : ∃ t full, tightRun.typography = some t ∧
    Design.readTypography ⟨[("letterSpacing", .int 0)]⟩ spaced = .ok t ∧
    typographyRules spaced = .ok spacedRules ∧ typographyRules t = .ok full ∧
    runRules tightRun (some spaced) = .ok [] ∧
    cascaded spacedRules [] .letterSpacing = some "2px" ∧
    declared full .letterSpacing = none := by
  refine ⟨{ fontWeight := some 400, letterSpacing := some 0 },
    [⟨.fontFamily, "'system-ui', system-ui, sans-serif"⟩, ⟨.fontSize, "14px"⟩,
      ⟨.fontWeight, "400"⟩, ⟨.textAlign, "left"⟩], rfl, ?_, typographyRules_spaced, ?_, ?_, ?_, ?_⟩
  · exact eq_ok_of_isOkWith (by decide +kernel)
  · exact eq_ok_of_isOkWith (by decide +kernel)
  · exact eq_ok_of_isOkWith (by decide +kernel)
  · decide
  · decide

end DesignToWeb.Css
