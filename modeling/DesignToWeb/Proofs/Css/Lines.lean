import DesignToWeb.Proofs.Conversion
import DesignToWeb.Proofs.Css.Lexing
import DesignToWeb.Proofs.Drawing

/-!
# One rule on a line

A stylesheet is meant to have one rule on each of its lines, and nothing that is written
into a rule should end it.  The names of the fonts are the only texts of a design that
reach the stylesheet as they are.  They are put between quotes after their own quotes
are gone, but a backslash or the end of a line stays, so it depends on the names
whether the rules hold.
-/

namespace DesignToWeb

open Outcome
open Text (MadeOf)

namespace Css

/-! ## Lines -/

def lines (s : String) : List String := (s.toList.splitOn '\n').map String.ofList

theorem lines_intercalate {ss : List String} (hne : ss ≠ []) (h : ∀ s ∈ ss, '\n' ∉ s.toList) :
    lines ("\n".intercalate ss) = ss := by
  have hparts : ∀ part ∈ ss.map String.toList, '\n' ∉ part := by
    intro part hpart
    obtain ⟨s, hs, rfl⟩ := List.mem_map.mp hpart
    exact h s hs
  have hnil : ss.map String.toList ≠ [] := by simpa using hne
  have hmark : "\n".toList = ['\n'] := rfl
  rw [lines, String.toList_intercalate, hmark, List.splitOn_intercalate '\n' hparts hnil,
    List.map_map]
  simp [Function.comp_def]

/-- No part of a list that is cut at some items holds such an item. -/
theorem notMem_of_mem_splitOnP {α : Type} {p : α → Bool} {l part : List α}
    (h : part ∈ l.splitOnP p) : ∀ a ∈ part, p a = false := by
  induction l generalizing part with
  | nil =>
      rw [List.splitOnP_nil, List.mem_singleton] at h
      rw [h]
      exact fun a ha ↦ absurd ha List.not_mem_nil
  | cons a l ih =>
      rw [List.splitOnP_cons_eq_if_modifyHead] at h
      split at h
      · rcases List.mem_cons.mp h with rfl | h
        · exact fun b hb ↦ absurd hb List.not_mem_nil
        · exact ih h
      · next ha =>
          obtain ⟨first, rest, hparts⟩ := List.exists_cons_of_ne_nil (List.splitOnP_ne_nil p l)
          rw [hparts, List.modifyHead_cons] at h
          rw [hparts] at ih
          rcases List.mem_cons.mp h with rfl | h
          · intro b hb
            rcases List.mem_cons.mp hb with rfl | hb
            · exact Bool.eq_false_iff.mpr ha
            · exact ih List.mem_cons_self b hb
          · exact ih (List.mem_cons_of_mem first h)

theorem notMem_of_mem_lines {s line : String} (h : line ∈ lines s) : '\n' ∉ line.toList := by
  obtain ⟨part, hpart, rfl⟩ := List.mem_map.mp h
  rw [String.toList_ofList]
  intro hmem
  have hnot := notMem_of_mem_splitOnP hpart '\n' hmem
  exact Bool.noConfusion ((beq_self_eq_true '\n').symm.trans hnot)

/-! ## Rules -/

/-- Whether a line is a rule for a class.  All of its strings are closed, and the braces around its
declarations are the only ones outside of strings. -/
structure IsRule (line : String) : Prop where
  form : ∃ selector declarations, MadeOf Naming.isSafe selector ∧
    line = "." ++ selector ++ "\x7b" ++ declarations ++ "\x7d"
  closed : read? .code line.toList = some (.code, ['\x7b', '\x7d'])

/-- The characters that are not plain. -/
def marks : List Char := ['"', '\'', '\\', '\n', '\r', '\x0c', '\x7b', '\x7d']

/-- A class of characters without any mark in it is a class of plain ones. -/
theorem isPlain_of_marks {p : Char → Bool} (hp : marks.any p = false) {c : Char}
    (h : p c = true) : isPlain c = true := by
  have hne (mark : Char) (hmark : mark ∈ marks) : (c == mark) = false := by
    rw [beq_eq_false_iff_ne]
    rintro rfl
    exact List.any_eq_false.mp hp c hmark h
  simp only [marks, List.forall_mem_cons] at hne
  obtain ⟨h₁, h₂, h₃, h₄, h₅, h₆, h₇, h₈, _⟩ := hne
  simp only [isPlain, isInert, isQuote, isNewline, isBrace, h₁, h₂, h₃, h₄, h₅, h₆, h₇, h₈,
    Bool.or_false, Bool.not_false, Bool.and_true]

theorem isPlain_of_isValueChar {c : Char} (h : isValueChar c = true) : isPlain c = true :=
  isPlain_of_marks (by decide) h

theorem isPlain_of_isSafe {c : Char} (h : Naming.isSafe c = true) : isPlain c = true :=
  isPlain_of_marks (by decide) h

theorem isPlain_of_isAddressChar {c : Char} (h : Naming.isAddressChar c = true) :
    isPlain c = true :=
  isPlain_of_marks (by decide) h

theorem madeOf_isPlain_name (property : Property) : MadeOf isPlain property.name :=
  (madeOf_name property).mono fun _ ↦ isPlain_of_isSafe

theorem isShut_of_isShut_value {d : Declaration} (h : IsShut d.value) : IsShut d.text :=
  (((IsShut.ofPlain (madeOf_isPlain_name d.property)).append (.ofPlain (by decide))).append
    h).append (.ofPlain (by decide))

/-- A block is a rule where its declarations have no effect beyond themselves. -/
theorem isRule_of_isShut {b : Block} (hselector : MadeOf Naming.isSafe b.selector)
    (h : ∀ d ∈ b.declarations, IsShut d.value) : IsRule b.text ∧ '\n' ∉ b.text.toList := by
  have hlead : IsShut ("." ++ b.selector) :=
    (IsShut.ofPlain (by decide)).append (.ofPlain (hselector.mono fun _ ↦ isPlain_of_isSafe))
  have hdeclarations : IsShut (declarationsText b.declarations) := by
    refine .join fun text htext ↦ ?_
    obtain ⟨d, hd, rfl⟩ := List.mem_map.mp htext
    exact isShut_of_isShut_value (h d hd)
  have hopen : read? .code "\x7b".toList = some (.code, ['\x7b']) := by decide
  have hclose : read? .code "\x7d".toList = some (.code, ['\x7d']) := by decide
  refine ⟨⟨⟨b.selector, declarationsText b.declarations, hselector, rfl⟩, ?_⟩, ?_⟩
  · rw [Block.text, String.toList_append, String.toList_append, String.toList_append,
      List.append_assoc, List.append_assoc, read?_append_of_eq hlead.2, read?_append_of_eq hopen,
      read?_append_of_eq hdeclarations.2, hclose]
    rfl
  · rw [Block.text, String.toList_append, String.toList_append, String.toList_append]
    simp only [List.mem_append, not_or]
    exact ⟨⟨⟨hlead.1, by decide⟩, hdeclarations.1⟩, by decide⟩

/-! ## Loose values -/

def ArePlain (ds : List Declaration) : Prop := ∀ d ∈ ds, MadeOf isValueChar d.value

theorem Declares.arePlain {properties : List Property} {ds : List Declaration}
    (h : Declares properties ds) : ArePlain ds :=
  fun d hd ↦ (h d hd).2

/-- Whether declarations are plain, all but one for a given value. -/
def ArePlainBut (value : String) (ds : List Declaration) : Prop :=
  ∃ before property after, ds = before ++ ⟨property, value⟩ :: after ∧ ArePlain before ∧
    ArePlain after

section Plain

variable {ds ds' : List Declaration} {value : String}

theorem ArePlain.nil : ArePlain [] := fun _ hd ↦ absurd hd List.not_mem_nil

theorem ArePlain.append (h : ArePlain ds) (h' : ArePlain ds') : ArePlain (ds ++ ds') := by
  intro d hd
  exact (List.mem_append.mp hd).elim (h d) (h' d)

theorem ArePlain.isShut (h : ArePlain ds) : ∀ d ∈ ds, IsShut d.value :=
  fun d hd ↦ .ofPlain ((h d hd).mono fun _ ↦ isPlain_of_isValueChar)

theorem ArePlainBut.append_left (h : ArePlain ds) (h' : ArePlainBut value ds') :
    ArePlainBut value (ds ++ ds') := by
  obtain ⟨before, property, after, rfl, hbefore, hafter⟩ := h'
  exact ⟨ds ++ before, property, after, (List.append_assoc _ _ _).symm, h.append hbefore, hafter⟩

theorem ArePlainBut.append_right (h : ArePlainBut value ds) (h' : ArePlain ds') :
    ArePlainBut value (ds ++ ds') := by
  obtain ⟨before, property, after, rfl, hbefore, hafter⟩ := h
  refine ⟨before, property, after ++ ds', ?_, hbefore, hafter.append h'⟩
  rw [List.append_assoc, List.cons_append]

theorem ArePlain.madeOf_isInert (h : ArePlain ds) : MadeOf isInert (declarationsText ds) := by
  refine .join fun text htext ↦ ?_
  obtain ⟨d, hd, rfl⟩ := List.mem_map.mp htext
  have hname := (madeOf_isPlain_name d.property).mono fun _ ↦ isInert_of_isPlain
  have hvalue := (h d hd).mono fun _ hc ↦ isInert_of_isPlain (isPlain_of_isValueChar hc)
  exact ((hname.append (by decide)).append hvalue).append (by decide)

end Plain

/-- The text of a block that is plain but for a value, around that value. -/
theorem text_of_arePlainBut {b : Block} {value : String}
    (hselector : MadeOf Naming.isSafe b.selector) (h : ArePlainBut value b.declarations) :
    ∃ before after, b.text = before ++ value ++ after ∧
      MadeOf isInert before ∧ '\x7b' ∈ before.toList ∧
      MadeOf isInert after ∧ '\x7d' ∈ after.toList := by
  obtain ⟨before, property, after, hds, hbefore, hafter⟩ := h
  have hselector := hselector.mono fun _ hc ↦ isInert_of_isPlain (isPlain_of_isSafe hc)
  have hname := (madeOf_isPlain_name property).mono fun _ ↦ isInert_of_isPlain
  refine ⟨"." ++ b.selector ++ "\x7b" ++ declarationsText before ++ property.name ++ ":",
    ";" ++ declarationsText after ++ "\x7d", ?_, ?_, ?_, ?_, ?_⟩
  · rw [Block.text, hds, declarationsText, List.map_append, List.map_cons, String.join_append,
      String.join_cons, Declaration.text]
    simp only [String.append_assoc, declarationsText]
  · exact ((((MadeOf.append (by decide) hselector).append (by decide)).append
      hbefore.madeOf_isInert).append hname).append (by decide)
  · simp
  · exact (MadeOf.append (by decide) hafter.madeOf_isInert).append (by decide)
  · simp

/-- A value between two texts without quotes is closed by itself or not at all. -/
theorem isShut_of_between {before value after : String} (hbefore : MadeOf isInert before)
    (hopen : '\x7b' ∈ before.toList) (hafter : MadeOf isInert after)
    (hclose : '\x7d' ∈ after.toList) (hline : '\n' ∉ value.toList)
    (h : read? .code (before ++ value ++ after).toList = some (.code, ['\x7b', '\x7d'])) :
    IsShut value := by
  rw [String.toList_append, String.toList_append, List.append_assoc,
    read?_append_of_eq (read?_code_of_inert hbefore)] at h
  obtain ⟨⟨last, braces⟩, hread, heq⟩ := Option.map_eq_some_iff.mp h
  obtain ⟨rfl, hbraces⟩ := Prod.mk.inj heq
  obtain ⟨mode, inner, outer, hvalue, hrest, rfl⟩ := read?_append_eq_some hread
  obtain rfl := eq_code_of_read? (isProper_of_read? rfl hvalue) hafter hrest
  have houter := (Prod.mk.inj (Option.some.inj ((read?_code_of_inert hafter).symm.trans hrest))).2
  -- Two braces are accounted for by the texts around the value.
  have hfirst := List.length_pos_of_mem (List.mem_filter.mpr ⟨hopen, (rfl : isBrace _ = true)⟩)
  have hlast := List.length_pos_of_mem (List.mem_filter.mpr ⟨hclose, (rfl : isBrace _ = true)⟩)
  have htwo := congrArg List.length hbraces
  rw [← houter] at htwo
  simp only [List.length_append, List.length_cons, List.length_nil] at htwo
  refine ⟨hline, ?_⟩
  rw [hvalue, List.eq_nil_of_length_eq_zero (by omega : inner.length = 0)]

/-- A block that is plain but for a value is a rule exactly when that value has no effect beyond
itself. -/
theorem isRule_iff_of_arePlainBut {b : Block} {value : String}
    (hselector : MadeOf Naming.isSafe b.selector) (h : ArePlainBut value b.declarations) :
    IsRule b.text ∧ '\n' ∉ b.text.toList ↔ IsShut value := by
  constructor
  · rintro ⟨hrule, hline⟩
    obtain ⟨before, after, htext, hbefore, hopen, hafter, hclose⟩ :=
      text_of_arePlainBut hselector h
    have hclosed := hrule.closed
    rw [htext] at hclosed
    refine isShut_of_between hbefore hopen hafter hclose (fun hmem ↦ hline ?_) hclosed
    rw [htext, String.toList_append, String.toList_append]
    exact List.mem_append_left _ (List.mem_append_right _ hmem)
  · intro hvalue
    obtain ⟨before, property, after, hds, hbefore, hafter⟩ := h
    refine isRule_of_isShut hselector fun d hd ↦ ?_
    rw [hds] at hd
    rcases List.mem_append.mp hd with hd | hd
    · exact hbefore.isShut d hd
    · rcases List.mem_cons.mp hd with rfl | hd
      · exact hvalue
      · exact hafter.isShut d hd

/-! ## Blocks -/

def imageValue (asset : ImageAsset) : String := "url(\"" ++ asset.address ++ "\")"

/-- The one value in the block of an element that may hold anything: the font of live text, or the
address of an image behind markup. -/
def ownValue? (c : Classified) (asset? : Option ImageAsset) : Option String :=
  match c.strategy with
  | .text => c.element.style.typography.map (fontFamily ·.fontFamily)
  | .markup => asset?.map imageValue
  | .imageFallback => none

/-- The fonts of the runs of an element that have a type of their own. -/
def runValues (c : Classified) : List String :=
  if c.strategy = .text then
    c.element.runs.filterMap fun run ↦ run.typography.map (fontFamily ·.fontFamily)
  else []

/-- The values in the blocks of an element that may hold anything. -/
def looseValues (assets : ImageAssets) (c : Classified) : List String :=
  (ownValue? c (assets.lookup c.id)).toList ++ runValues c

/-- Whether declarations are plain but for a value, if there is one. -/
def ArePlainUpTo (value? : Option String) (ds : List Declaration) : Prop :=
  match value? with
  | some value => ArePlainBut value ds
  | none => ArePlain ds

section UpTo

variable {ds ds' : List Declaration} {value? : Option String}

theorem ArePlainUpTo.append_left (h : ArePlain ds) (h' : ArePlainUpTo value? ds') :
    ArePlainUpTo value? (ds ++ ds') := by
  cases value? with
  | none => exact ArePlain.append h h'
  | some value => exact ArePlainBut.append_left h h'

theorem ArePlainUpTo.append_right (h : ArePlainUpTo value? ds) (h' : ArePlain ds') :
    ArePlainUpTo value? (ds ++ ds') := by
  cases value? with
  | none => exact ArePlain.append h h'
  | some value => exact ArePlainBut.append_right h h'

theorem ArePlainUpTo.cases (h : ArePlainUpTo value? ds) :
    ArePlain ds ∨ ∃ value, value? = some value ∧ ArePlainBut value ds := by
  cases value? with
  | none => exact Or.inl h
  | some value => exact Or.inr ⟨value, rfl, h⟩

end UpTo

theorem arePlainUpTo_imageRules (asset? : Option ImageAsset) :
    ArePlainUpTo (asset?.map imageValue) (imageRules asset?) := by
  cases asset? with
  | none => exact ArePlain.nil
  | some asset =>
      exact ⟨[], .backgroundImage, scaleModeRules asset.scaleMode, rfl, ArePlain.nil,
        (declares_scaleModeRules _).arePlain⟩

theorem arePlainBut_typographyRules {t : Typography} {ds : List Declaration}
    (h : typographyRules t = .ok ds) : ArePlainBut (fontFamily t.fontFamily) ds := by
  obtain ⟨rest, rfl, hrest⟩ := typographyRules_eq_ok h
  exact ⟨[], .fontFamily, rest, rfl, ArePlain.nil, hrest.arePlain⟩

theorem arePlainUpTo_liveTextRules {c : Classified} {ds : List Declaration}
    (htext : c.strategy = .text) (h : liveTextRules c = .ok ds) :
    ArePlainUpTo (c.element.style.typography.map (fontFamily ·.fontFamily)) ds := by
  unfold liveTextRules at h
  cases htype : c.element.style.typography with
  | none =>
      simp only [htext, htype] at h
      rw [← Except.ok.inj h]
      exact ArePlain.nil
  | some t =>
      simp only [htext, htype] at h
      obtain ⟨all, hall, h⟩ := bind_eq_ok.mp h
      have hspace : Declares [.whiteSpace] [⟨.whiteSpace, "pre-wrap"⟩] :=
        declares_singleton (by decide)
      rw [← pure_eq_ok.mp h]
      exact (arePlainBut_typographyRules hall).append_right hspace.arePlain

theorem liveTextRules_of_ne_text {c : Classified} (h : c.strategy ≠ .text) :
    liveTextRules c = .ok [] := by
  unfold liveTextRules
  cases hstrategy : c.strategy with
  | text => exact absurd hstrategy h
  | _ => rfl

theorem arePlainUpTo_fillRules {c : Classified} {asset? : Option ImageAsset}
    {ds : List Declaration} (htext : c.strategy ≠ .text) (h : fillRules c asset? = .ok ds) :
    ArePlainUpTo (asset?.map imageValue) ds := by
  rw [fillRules, if_neg htext] at h
  obtain ⟨layers, hlayers, h⟩ := bind_eq_ok.mp h
  rw [← pure_eq_ok.mp h]
  exact .append_left (declares_background hlayers).arePlain (arePlainUpTo_imageRules asset?)

/-- The rules for the paint of an element and for its live text, with what stands between them. -/
theorem arePlainUpTo_paint {c : Classified} {asset? : Option ImageAsset}
    {fills others typography : List Declaration} (himage : c.strategy ≠ .imageFallback)
    (hfills : fillRules c asset? = .ok fills) (hothers : ArePlain others)
    (htypography : liveTextRules c = .ok typography) :
    ArePlainUpTo (ownValue? c asset?) (fills ++ others ++ typography) := by
  unfold ownValue?
  cases hstrategy : c.strategy with
  | imageFallback => exact absurd hstrategy himage
  | text =>
      rw [fillRules, if_pos hstrategy] at hfills
      exact .append_left ((declares_textColor hfills).arePlain.append hothers)
        (arePlainUpTo_liveTextRules hstrategy htypography)
  | markup =>
      have htext : c.strategy ≠ .text := by
        rw [hstrategy]
        exact nofun
      rw [liveTextRules_of_ne_text htext] at htypography
      rw [← Except.ok.inj htypography, List.append_nil]
      exact (arePlainUpTo_fillRules htext hfills).append_right hothers

/-- The own block of an element is plain but for its own value. -/
theorem arePlainUpTo_elementRules {c : Classified} {asset? : Option ImageAsset}
    {ds : List Declaration} (hdirection : HasKnownDirection c)
    (h : elementRules c asset? = .ok ds) : ArePlainUpTo (ownValue? c asset?) ds := by
  by_cases himage : c.strategy = .imageFallback
  · obtain ⟨layout, hlayout, h⟩ := bind_eq_ok.mp h
    rw [if_pos himage] at h
    rw [← pure_eq_ok.mp h, ownValue?, himage]
    exact (declares_layoutRules hdirection hlayout).arePlain
  · obtain ⟨layout, fills, border', shadows, opacity', corners, typography, hlayout, hfills,
      hborder, hshadows, hopacity, hcorners, htypography, rfl⟩ := elementRules_eq_parts himage h
    have hothers : ArePlain (border' ++ shadows ++ opacity' ++ corners) :=
      (((declares_border hborder).arePlain.append (declares_boxShadow hshadows).arePlain).append
        (declares_opacity hopacity).arePlain).append (declares_cornerRadius hcorners).arePlain
    have hpaint := arePlainUpTo_paint himage hfills hothers htypography
    have hall := hpaint.append_left (declares_layoutRules hdirection hlayout).arePlain
    simp only [List.append_assoc] at hall ⊢
    exact hall

/-- A run declares the font of its own type, if it has one, unless the text around it declares the
same. -/
theorem runRules_cases {run : TextRun} {base : Option Typography} {ds : List Declaration}
    (h : runRules run base = .ok ds) :
    ArePlainUpTo (run.typography.map (fontFamily ·.fontFamily)) ds ∨
      ArePlain ds ∧ ∃ t b, run.typography = some t ∧ base = some b ∧
        fontFamily t.fontFamily = fontFamily b.fontFamily := by
  obtain ⟨color, typography, rfl, hcolor, htypography⟩ := runRules_eq_ok h
  rcases htypography with ⟨hnone, rfl⟩ | ⟨t, htype, hchanged⟩
  · rw [List.append_nil, hnone]
    exact Or.inl hcolor.arePlain
  · obtain ⟨inherited, all, hall, rfl, hinherited⟩ := changedTypography_eq_ok hchanged
    obtain ⟨rest, rfl, hrest⟩ := typographyRules_eq_ok hall
    have hkept : ArePlain (rest.filter (!inherited.contains ·)) :=
      fun d hd ↦ (hrest d (List.mem_of_mem_filter hd)).2
    rw [htype]
    -- the family is left out exactly if the text around the run declares the same
    cases hcontains : inherited.contains ⟨.fontFamily, fontFamily t.fontFamily⟩ with
    | false =>
        rw [List.filter_cons_of_pos (by rw [hcontains]; rfl)]
        exact Or.inl ⟨color, .fontFamily, _, rfl, hcolor.arePlain, hkept⟩
    | true =>
        rw [List.filter_cons_of_neg (by rw [hcontains]; decide)]
        refine Or.inr ⟨hcolor.arePlain.append hkept, t, ?_⟩
        have hmem := List.contains_iff_mem.mp hcontains
        rcases hinherited with rfl | ⟨b, hb, hbase⟩
        · exact absurd hmem List.not_mem_nil
        · obtain ⟨others, rfl, hothers⟩ := typographyRules_eq_ok hbase
          refine ⟨b, rfl, hb, ?_⟩
          rcases List.mem_cons.mp hmem with heq | hmem
          · exact (Declaration.mk.inj heq).2
          · exact absurd rfl (hothers.notMem (by decide : .fontFamily ∉ typeProperties) _ hmem)

theorem block?_of_arePlainBut {selector value : String} {ds : List Declaration}
    (h : ArePlainBut value ds) : block? selector ds = some ⟨selector, ds⟩ := by
  obtain ⟨before, property, after, rfl, _⟩ := h
  exact block?_eq_some (List.isEmpty_eq_false_iff.mpr (by simp))

theorem exists_block_of_run {c : Classified} {blocks : List Block} (h : runBlocks c = .ok blocks)
    (htext : c.strategy = .text) {run : TextRun} (hrun : run ∈ c.element.runs)
    (hstyled : run.isStyled = true) :
    ∃ ds, runRules run c.element.style.typography = .ok ds ∧
      ∀ value, ArePlainBut value ds → ∃ b ∈ blocks, MadeOf Naming.isSafe b.selector ∧
        ArePlainBut value b.declarations := by
  unfold runBlocks at h
  rw [if_pos ⟨htext, List.any_eq_true.mpr ⟨run, hrun, hstyled⟩⟩] at h
  obtain ⟨options, hoptions, h⟩ := bind_eq_ok.mp h
  obtain ⟨i, hi⟩ := List.mem_iff_getElem?.mp hrun
  obtain ⟨option, hoption, hvisit⟩ :=
    exists_of_mem_left hoptions (List.mk_mem_zipIdx_iff_getElem?.mpr hi)
  obtain ⟨ds, hds, hblock⟩ := bind_eq_ok.mp hvisit
  refine ⟨ds, hds, fun value hvalue ↦ ?_⟩
  rw [block?_of_arePlainBut hvalue] at hblock
  refine ⟨⟨Naming.spanClass c.id i, ds⟩, ?_, Naming.madeOf_spanClass c.id i, hvalue⟩
  rw [← pure_eq_ok.mp h]
  exact List.mem_filterMap.mpr ⟨option, hoption, (pure_eq_ok.mp hblock).symm⟩

theorem mem_runValues_iff {c : Classified} {value : String} :
    value ∈ runValues c ↔ c.strategy = .text ∧
      ∃ run ∈ c.element.runs, run.typography.map (fontFamily ·.fontFamily) = some value := by
  unfold runValues
  split
  · next htext =>
      rw [List.mem_filterMap]
      exact ⟨fun h ↦ ⟨htext, h⟩, fun h ↦ h.2⟩
  · next htext => exact ⟨fun h ↦ absurd h List.not_mem_nil, fun h ↦ absurd h.1 htext⟩

section Elements

variable {assets : ImageAssets} {c : Classified} {blocks : List Block}

/-- Every block of an element is plain, or plain but for a loose value of the element. -/
theorem elementBlocks_cases (hdirection : HasKnownDirection c)
    (h : elementBlocks assets c = .ok blocks) {b : Block} (hb : b ∈ blocks) :
    MadeOf Naming.isSafe b.selector ∧ (ArePlain b.declarations ∨
      ∃ value ∈ looseValues assets c, ArePlainBut value b.declarations) := by
  obtain ⟨ds, hds, h⟩ := bind_eq_ok.mp h
  obtain ⟨spans, hspans, h⟩ := bind_eq_ok.mp h
  rw [← pure_eq_ok.mp h] at hb
  rcases List.mem_append.mp hb with hb | hb
  · rw [eq_of_block?_eq_some (Option.mem_toList.mp hb)]
    refine ⟨Naming.madeOf_cssClass c.id, ?_⟩
    rcases (arePlainUpTo_elementRules hdirection hds).cases with hplain | ⟨value, hown, hplain⟩
    · exact Or.inl hplain
    · exact Or.inr ⟨value, List.mem_append_left _ (Option.mem_toList.mpr hown), hplain⟩
  · obtain ⟨htext, run, hrun, i, hselector, hrules⟩ := exists_run_of_mem_runBlocks hspans hb
    rw [hselector]
    refine ⟨Naming.madeOf_spanClass c.id i, ?_⟩
    rcases runRules_cases hrules with hupTo | ⟨hplain, _⟩
    · rcases hupTo.cases with hplain | ⟨value, hvalue, hplain⟩
      · exact Or.inl hplain
      · have hmem := mem_runValues_iff.mpr ⟨htext, run, hrun, hvalue⟩
        exact Or.inr ⟨value, List.mem_append_right _ hmem, hplain⟩
    · exact Or.inl hplain

/-- Every loose value of an element stands in a block of it that is plain apart from it. -/
theorem exists_block_of_mem_looseValues (hdirection : HasKnownDirection c)
    (h : elementBlocks assets c = .ok blocks) {value : String}
    (hvalue : value ∈ looseValues assets c) :
    ∃ b ∈ blocks, MadeOf Naming.isSafe b.selector ∧ ArePlainBut value b.declarations := by
  obtain ⟨ds, hds, h⟩ := bind_eq_ok.mp h
  obtain ⟨spans, hspans, h⟩ := bind_eq_ok.mp h
  have hown (value : String) (hvalue : ownValue? c (assets.lookup c.id) = some value) :
      ∃ b ∈ blocks, MadeOf Naming.isSafe b.selector ∧ ArePlainBut value b.declarations := by
    have hplain := arePlainUpTo_elementRules hdirection hds
    rw [hvalue] at hplain
    refine ⟨⟨Naming.cssClass c.id, ds⟩, ?_, Naming.madeOf_cssClass c.id, hplain⟩
    rw [← pure_eq_ok.mp h, block?_of_arePlainBut hplain]
    exact List.mem_append_left _ (List.mem_singleton_self _)
  rcases List.mem_append.mp hvalue with hvalue | hvalue
  · exact hown value (Option.mem_toList.mp hvalue)
  · obtain ⟨htext, run, hrun, hvalue⟩ := mem_runValues_iff.mp hvalue
    have hstyled : run.isStyled = true := by
      obtain ⟨t, htype, _⟩ := Option.map_eq_some_iff.mp hvalue
      rw [TextRun.isStyled, htype]
      rfl
    obtain ⟨rules, hrules, hblock⟩ := exists_block_of_run hspans htext hrun hstyled
    rcases runRules_cases hrules with hplain | ⟨_, t, b, htype, hbase, hsame⟩
    · rw [hvalue] at hplain
      obtain ⟨b, hb, hspan⟩ := hblock value hplain
      refine ⟨b, ?_, hspan⟩
      rw [← pure_eq_ok.mp h]
      exact List.mem_append_right _ hb
    · -- A font that the paragraph declares is left out of the span.
      apply hown
      rw [htype, Option.map_some, hsame] at hvalue
      rw [ownValue?, htext, hbase]
      exact hvalue

end Elements

/-! ## Stylesheets -/

theorem isRule_of_mem_blocks {b : Block} {values : List String}
    (hselector : MadeOf Naming.isSafe b.selector)
    (h : ArePlain b.declarations ∨ ∃ value ∈ values, ArePlainBut value b.declarations)
    (hvalues : ∀ value ∈ values, IsShut value) : IsRule b.text ∧ '\n' ∉ b.text.toList := by
  rcases h with hplain | ⟨value, hvalue, hplain⟩
  · exact isRule_of_isShut hselector hplain.isShut
  · exact (isRule_iff_of_arePlainBut hselector hplain).mpr (hvalues value hvalue)

/-- A stylesheet has one rule on each line for every block exactly when all the values that may hold
anything are without effect beyond themselves. -/
theorem lines_stylesheet_iff {assets : ImageAssets} {scene : ClassifiedScene} {css : String}
    (hdirection : ∀ c ∈ scene.elements, HasKnownDirection c)
    (h : stylesheet assets scene = .ok css) :
    ∃ all, blocks assets scene = .ok all ∧
      ((lines css = rootRule :: all.map Block.text ∧ ∀ b ∈ all, IsRule b.text) ↔
        ∀ c ∈ scene.elements, ∀ value ∈ looseValues assets c, IsShut value) := by
  obtain ⟨all, hall, hcss⟩ := bind_eq_ok.mp h
  obtain ⟨lists, hlists, hflatten⟩ := bind_eq_ok.mp hall
  obtain rfl := pure_eq_ok.mp hflatten
  refine ⟨lists.flatten, hall, fun ⟨hlines, hrules⟩ c hc value hvalue ↦ ?_, fun hvalues ↦ ?_⟩
  · -- a loose value stands in a block that is plain apart from it, so it decides on that line
    obtain ⟨own, hown, helement⟩ := exists_of_mem_left hlists hc
    obtain ⟨b, hb, hselector, hplain⟩ :=
      exists_block_of_mem_looseValues (hdirection c hc) helement hvalue
    have hmem : b ∈ lists.flatten := List.mem_flatten_of_mem hown hb
    have hline : b.text ∈ lines css := by
      rw [hlines]
      exact List.mem_cons_of_mem rootRule (List.mem_map_of_mem hmem)
    exact (isRule_iff_of_arePlainBut hselector hplain).mp
      ⟨hrules b hmem, notMem_of_mem_lines hline⟩
  · have hrules : ∀ b ∈ lists.flatten, IsRule b.text ∧ '\n' ∉ b.text.toList := by
      intro b hb
      obtain ⟨own, hown, hb⟩ := List.mem_flatten.mp hb
      obtain ⟨c, hc, helement⟩ := exists_of_mem_right hlists hown
      obtain ⟨hselector, hcases⟩ := elementBlocks_cases (hdirection c hc) helement hb
      exact isRule_of_mem_blocks hselector hcases (hvalues c hc)
    refine ⟨?_, fun b hb ↦ (hrules b hb).1⟩
    rw [← pure_eq_ok.mp hcss]
    refine lines_intercalate (List.cons_ne_nil _ _) fun text htext ↦ ?_
    rcases List.mem_cons.mp htext with rfl | htext
    · decide
    · obtain ⟨b, hb, rfl⟩ := List.mem_map.mp htext
      exact (hrules b hb).2

/-- The addresses that bitmaps are given can stand between quotes. -/
theorem isShut_imageValue {asset : ImageAsset} (h : MadeOf Naming.isAddressChar asset.address) :
    IsShut (imageValue asset) := by
  have hopen : "url(\"" = "url(" ++ "\"" := by decide
  have hclose : "\")" = "\"" ++ ")" := by decide
  have hassoc : imageValue asset = "url(" ++ ("\"" ++ asset.address ++ "\"") ++ ")" := by
    rw [imageValue, hopen, hclose]
    simp only [String.append_assoc]
  have hinert : MadeOf isInert asset.address :=
    h.mono fun _ hc ↦ isInert_of_isPlain (isPlain_of_isAddressChar hc)
  rw [hassoc]
  exact ((IsShut.ofPlain (by decide)).append
    (.ofQuoted rfl rfl (isQuotable_of_madeOf rfl hinert))).append (.ofPlain (by decide))

/-- The types that the text of an element is shown in: its own, and those of its runs. -/
def liveTypes (c : Classified) : List Typography :=
  if c.strategy = .text then
    c.element.style.typography.toList ++ c.element.runs.filterMap TextRun.typography
  else []

theorem isShut_looseValues_iff {assets : ImageAssets} {c : Classified} :
    (∀ value ∈ looseValues assets c, IsShut value) ↔
      (∀ t ∈ liveTypes c, IsQuotable '\'' (bareFamily t.fontFamily)) ∧
        (c.strategy = .markup → ∀ asset, assets.lookup c.id = some asset →
          IsShut (imageValue asset)) := by
  unfold looseValues ownValue? runValues liveTypes
  cases hstrategy : c.strategy with
  | text =>
      have hfonts : c.element.runs.filterMap (fun run ↦ run.typography.map (fontFamily ·.fontFamily)) =
          (c.element.runs.filterMap TextRun.typography).map (fontFamily ·.fontFamily) :=
        (List.map_filterMap).symm
      simp only [if_true, Option.toList_map, hfonts, ← List.map_append, List.forall_mem_map,
        isShut_fontFamily_iff]
      exact ⟨fun h ↦ ⟨h, nofun⟩, And.left⟩
  | markup =>
      simp
  | imageFallback =>
      simp

end Css

open Css

/-- The stylesheet of a design has one rule on each line after the first, one for every block,
exactly when the families of all live text can stand between quotes, and so can the addresses of the
images behind markup. -/
theorem lines_css_iff {policy : Policy} {file : Json} {title : String} {assets : ImageAssets}
    {document : ClassifiedDocument} {emission : Emission}
    (hdocument : classifyDocument policy file = .ok document)
    (hemit : emit title assets document = .ok emission) :
    ∃ all, blocks assets document.scene = .ok all ∧
      ((lines emission.css = rootRule :: all.map Block.text ∧ ∀ b ∈ all, IsRule b.text) ↔
        ∀ c ∈ document.scene.elements,
          (∀ t ∈ liveTypes c, IsQuotable '\'' (bareFamily t.fontFamily)) ∧
            (c.strategy = .markup → ∀ asset, assets.lookup c.id = some asset →
              IsShut (imageValue asset))) := by
  obtain ⟨all, hall, hiff⟩ := lines_stylesheet_iff
    (fun c hc _ hbox ↦ direction_of_mem hdocument hc hbox) (emit_eq_ok hemit).2
  refine ⟨all, hall, hiff.trans ?_⟩
  exact forall₂_congr fun _ _ ↦ isShut_looseValues_iff

/-- A sign with a picture below a text, whose two fonts have quotes and braces in their names. -/
def signboard : Json :=
  .obj [("children", .arr [.obj [("id", .str "0:1"), ("children", .arr [
    .obj [("id", .str "1:1"), ("type", .str "TEXT"), ("characters", .str "Hi!"),
      ("style", .obj [("fontFamily", .str "Smith's \"Sans\"")]),
      ("characterStyleOverrides", .arr [.int 7, .int 7]),
      ("styleOverrideTable", .obj [("7", .obj [("fontFamily", .str "\x7bMono\x7d;")])])],
    .obj [("id", .str "1:2"), ("type", .str "RECTANGLE"),
      ("fills", .arr [.obj [("type", .str "IMAGE"), ("imageRef", .str "a")]])]])]])]

def signPicture : ImageAssets := [("1:2", ⟨"images/a.png", .fit⟩)]

/-- Quotes and braces in names do no harm. -/
theorem lines_css_signboard : ∃ (document : ClassifiedDocument) (emission : Emission)
    (all : List Block), classifyDocument {} signboard = .ok document ∧
      emit "Sign" signPicture document = .ok emission ∧
      (document.scene.elements.map fun c ↦ (liveTypes c).length) = [2, 0] ∧
      blocks signPicture document.scene = .ok all ∧
      lines emission.css = rootRule :: all.map Block.text ∧ ∀ b ∈ all, IsRule b.text := by
  obtain ⟨document, emission, hdocument, hemit, hfacts⟩ : ∃ document emission,
      classifyDocument {} signboard = .ok document ∧
      emit "Sign" signPicture document = .ok emission ∧
      ((document.scene.elements.map fun c ↦ (liveTypes c).length) == [2, 0] &&
        document.scene.elements.all fun c ↦ (liveTypes c).all fun t ↦
          decide (IsQuotable '\'' (bareFamily t.fontFamily))) = true :=
    exists_emission (by decide +kernel)
  obtain ⟨hlength, hfonts⟩ := Bool.and_eq_true_iff.mp hfacts
  obtain ⟨all, hall, hiff⟩ := lines_css_iff hdocument hemit
  have hpicture : ∀ c ∈ document.scene.elements,
      (∀ t ∈ liveTypes c, IsQuotable '\'' (bareFamily t.fontFamily)) ∧
        (c.strategy = .markup → ∀ asset, signPicture.lookup c.id = some asset →
          IsShut (imageValue asset)) := by
    intro c hc
    refine ⟨fun t ht ↦ ?_, fun _ asset hasset ↦ isShut_imageValue ?_⟩
    · exact of_decide_eq_true (List.all_eq_true.mp (List.all_eq_true.mp hfonts c hc) t ht)
    · have hmem := List.mem_singleton.mp (mem_of_lookup hasset)
      rw [(Prod.mk.inj hmem).2]
      decide
  obtain ⟨hlines, hrules⟩ := hiff.mpr hpicture
  exact ⟨document, emission, all, hdocument, hemit, eq_of_beq hlength, hall, hlines, hrules⟩

/-- A text in a font whose name ends with a backslash. -/
def slanted : Json :=
  .obj [("children", .arr [.obj [("id", .str "0:1"), ("children", .arr [
    .obj [("id", .str "1:1"), ("type", .str "TEXT"), ("characters", .str "Hi"),
      ("style", .obj [("fontFamily", .str "Foo\\")])]])]])]

/-- The backslash takes away the meaning of the quote that should close the name, and so the rule is
none. -/
theorem not_lines_css_slanted : ∃ (document : ClassifiedDocument) (emission : Emission)
    (all : List Block), classifyDocument {} slanted = .ok document ∧
      emit "Sign" [] document = .ok emission ∧ blocks [] document.scene = .ok all ∧
      (∃ c ∈ document.scene.elements, ∃ t ∈ liveTypes c,
        fontFamily t.fontFamily = "'Foo\\', system-ui, sans-serif") ∧
      ¬ (lines emission.css = rootRule :: all.map Block.text ∧ ∀ b ∈ all, IsRule b.text) := by
  obtain ⟨document, emission, hdocument, hemit, c, hc, hfacts⟩ : ∃ document emission,
      classifyDocument {} slanted = .ok document ∧ emit "Sign" [] document = .ok emission ∧
      ∃ c ∈ document.scene.elements,
        ((liveTypes c).any fun t ↦ t.fontFamily == "Foo\\") = true :=
    exists_element_of_conversion (by decide +kernel)
  obtain ⟨t, ht, hfamily⟩ := List.any_eq_true.mp hfacts
  obtain ⟨all, hall, hiff⟩ := lines_stylesheet_iff
    (fun c hc _ hbox ↦ direction_of_mem hdocument hc hbox) (emit_eq_ok hemit).2
  refine ⟨document, emission, all, hdocument, hemit, hall, ⟨c, hc, t, ht, ?_⟩, fun hrules ↦ ?_⟩
  · rw [eq_of_beq hfamily]
    decide
  · have hquotable := (isShut_looseValues_iff.mp (hiff.mp hrules c hc)).1 t ht
    rw [eq_of_beq hfamily] at hquotable
    exact absurd hquotable (by decide)

end DesignToWeb
