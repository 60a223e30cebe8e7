import DesignToWeb.Design.Element
import DesignToWeb.Proofs.Outcome

/-!
# What paints come to

A node has three lists of paints.  Every visible entry of a list is drawn, if
its type is one of those that are supported, or else comes to a warning that
names its type.  What is drawn and what is warned about keeps the order of the
entries.
-/

namespace DesignToWeb.Design

open Outcome

/-! ## Lists of paints -/

inductive PaintList where
  | fills
  | strokes
  | effects
deriving DecidableEq

def typeOf (entry : Attributes) : String := (entry.get "type").labelOrEmpty

namespace PaintList

/-- The field of a node that holds the list. -/
def field : PaintList → String
  | fills => "fills"
  | strokes => "strokes"
  | effects => "effects"

/-- What an entry is called in warnings. -/
def entryName : PaintList → String
  | fills => "fill"
  | strokes => "stroke"
  | effects => "effect"

def types : PaintList → List String
  | fills =>
    ["SOLID", "GRADIENT_LINEAR", "GRADIENT_RADIAL", "GRADIENT_ANGULAR", "GRADIENT_CONIC", "IMAGE"]
  | strokes => "SOLID" :: gradientTypes
  | effects => ["DROP_SHADOW", "INNER_SHADOW", "LAYER_BLUR", "BACKGROUND_BLUR"]

def draws (l : PaintList) (entry : Attributes) : Bool := l.types.contains (typeOf entry)

def warning (l : PaintList) (entry : Attributes) : String :=
  "Unsupported " ++ l.entryName ++ " type: " ++ typeOf entry

/-- The entries of the list that count. -/
def entries (l : PaintList) (node : Attributes) : List Attributes :=
  (node.get l.field).objects.filter isVisible

def drawn (l : PaintList) (node : Attributes) : List Attributes := (l.entries node).filter l.draws

def warnings (l : PaintList) (node : Attributes) : List String :=
  ((l.entries node).filter (!l.draws ·)).map l.warning

/-- No entry is lost, and none is both drawn and warned about. -/
theorem length_drawn_add_warnings (l : PaintList) (node : Attributes) :
    (l.drawn node).length + (l.warnings node).length = (l.entries node).length := by
  rw [drawn, warnings, List.length_map]
  exact (List.length_eq_length_filter_add l.draws).symm

end PaintList

/-! ## Single entries -/

/-- Whether a reading of an entry is what the type of the entry demands. -/
inductive Settles {α : Type} (l : PaintList) (entry : Attributes) : Reading α → Prop
  | drawn (h : l.draws entry = true) (item : α) : Settles l entry (.drawn item)
  | unsupported (h : l.draws entry = false) : Settles l entry (.unsupported (l.warning entry))

section Entries

variable {α : Type} {l : PaintList} {entry : Attributes} {type : String}

theorem settles_drawn (htype : typeOf entry = type) (h : l.types.contains type = true) (item : α) :
    Ensures (Settles l entry) (pure (.drawn item) : Except Fault (Reading α)) :=
  .pure (.drawn (by rw [PaintList.draws, htype, h]) item)

end Entries

theorem readFill_settles (paint : Attributes) :
    Ensures (Settles .fills paint) (readFill paint) := by
  rw [readFill]
  split
  · next h => exact .after fun _ ↦ settles_drawn h rfl _
  · next h => exact .after fun _ ↦ .after fun _ ↦ settles_drawn h rfl _
  · next h => exact .after fun _ ↦ settles_drawn h rfl _
  · next h => exact .after fun _ ↦ .after fun _ ↦ settles_drawn h rfl _
  · next h => exact .after fun _ ↦ .after fun _ ↦ settles_drawn h rfl _
  · next h => exact .after fun _ ↦ settles_drawn h rfl _
  · next hsolid hlinear hradial hangular hconic himage =>
      refine .pure (.unsupported ?_)
      simpa [PaintList.draws, PaintList.types, typeOf] using
        ⟨hsolid, hlinear, hradial, hangular, hconic, himage⟩

theorem readStroke_eq_ok {node paint : Attributes} {reading : Reading Stroke}
    (h : readStroke node paint = .ok reading) :
    (∃ stroke color, reading = .drawn stroke ∧ stroke.paint = .solid (some color)) ∨
      (∃ stroke stops heading, reading = .drawn stroke ∧ stroke.paint = .gradient stops heading) ∨
      ∃ kind, reading = .unsupported ("Unsupported stroke type: " ++ kind) := by
  unfold readStroke at h
  obtain ⟨width, _, h⟩ := bind_eq_ok.mp h
  obtain ⟨dashes, _, h⟩ := bind_eq_ok.mp h
  dsimp only at h
  split at h
  · obtain ⟨color, _, h⟩ := bind_eq_ok.mp h
    exact Or.inl ⟨_, color, (pure_eq_ok.mp h).symm, rfl⟩
  · split at h
    · obtain ⟨stops, _, h⟩ := bind_eq_ok.mp h
      obtain ⟨heading, _, h⟩ := bind_eq_ok.mp h
      exact Or.inr (Or.inl ⟨_, stops, some heading, (pure_eq_ok.mp h).symm, rfl⟩)
    · exact Or.inr (Or.inr ⟨_, (pure_eq_ok.mp h).symm⟩)

theorem readStroke_settles (node paint : Attributes) :
    Ensures (Settles .strokes paint) (readStroke node paint) := by
  refine .after fun width ↦ .after fun dashes ↦ ?_
  dsimp only
  split
  · next h => exact .after fun _ ↦ settles_drawn h rfl _
  · next hsolid =>
      split
      · next h =>
          refine .after fun _ ↦ .after fun _ ↦ settles_drawn rfl ?_ _
          exact List.contains_cons.trans (by rw [typeOf, h, Bool.or_true])
      · next h =>
          refine .pure (.unsupported (List.contains_cons.trans ?_))
          rw [typeOf, beq_false_of_ne hsolid, Bool.false_or]
          exact Bool.eq_false_iff.mpr h

theorem readEffect_settles (effect : Attributes) :
    Ensures (Settles .effects effect) (readEffect effect) := by
  rw [readEffect]
  split
  · next h => exact .after fun _ ↦ settles_drawn h rfl _
  · next h => exact .after fun _ ↦ settles_drawn h rfl _
  · next h => exact .after fun _ ↦ settles_drawn h rfl _
  · next h => exact .after fun _ ↦ settles_drawn h rfl _
  · next hdrop hinner hlayer hbackground =>
      refine .pure (.unsupported ?_)
      simpa [PaintList.draws, PaintList.types, typeOf] using ⟨hdrop, hinner, hlayer, hbackground⟩

/-! ## Visible entries -/

section Visible

variable {α : Type} {read : Attributes → Except Fault (Reading α)} {entries : List Attributes}
  {readings : Readings α}

theorem exists_drawn_of_mem (h : readVisible read entries = .ok readings) {item : α}
    (hitem : item ∈ readings.items) : ∃ entry ∈ entries, read entry = .ok (.drawn item) := by
  obtain ⟨rs, hrs, h⟩ := bind_eq_ok.mp h
  rw [← pure_eq_ok.mp h, Readings.ofList, List.mem_filterMap] at hitem
  obtain ⟨reading, hreading, hvalue⟩ := hitem
  obtain ⟨entry, hentry, hread⟩ := exists_of_mem_right hrs hreading
  cases reading with
  | drawn a =>
      rw [Option.some.inj hvalue] at hread
      exact ⟨entry, List.mem_of_mem_filter hentry, hread⟩
  | unsupported w => exact nomatch hvalue

/-- A list comes to its supported entries one by one, and to a warning for each of the others. -/
theorem readVisible_settles {l : PaintList} (hread : ∀ entry, Ensures (Settles l entry) (read entry))
    (h : readVisible read entries = .ok readings) :
    List.Forall₂ (fun entry item ↦ read entry = .ok (.drawn item))
        ((entries.filter isVisible).filter l.draws) readings.items ∧
      readings.warnings = ((entries.filter isVisible).filter (!l.draws ·)).map l.warning := by
  obtain ⟨rs, hrs, h⟩ := bind_eq_ok.mp h
  rw [← pure_eq_ok.mp h, Readings.ofList]
  have hall := mapM_eq_ok.mp hrs
  generalize entries.filter isVisible = visible at hall ⊢
  clear hrs h
  induction hall with
  | nil => exact ⟨.nil, rfl⟩
  | @cons entry reading entries rs hentry _ ih =>
      cases hread entry reading hentry with
      | drawn hdraws item =>
          rw [List.filter_cons_of_pos hdraws, List.filter_cons_of_neg (by simp [hdraws])]
          exact ⟨.cons hentry ih.1, ih.2⟩
      | unsupported hdraws =>
          rw [List.filter_cons_of_neg (by simp [hdraws]), List.filter_cons_of_pos (by simp [hdraws])]
          exact ⟨ih.1, congrArg (l.warning entry :: ·) ih.2⟩

end Visible

/-! ## Styles -/

/-- A style shows what its lists of paints came to, and the warnings about them follow each
other. -/
theorem readStyle_eq_ok {node : Attributes} {kind : NodeKind} {style : Style}
    {warnings : List String} (h : readStyle node kind = .ok (style, warnings)) :
    ∃ fills strokes effects, readFills (node.get "fills").objects = .ok fills ∧
      readStrokes node = .ok strokes ∧ readEffects (node.get "effects").objects = .ok effects ∧
      style.fills = fills.items ∧ style.strokes = strokes.items ∧ style.effects = effects.items ∧
      warnings = fills.warnings ++ strokes.warnings ++ effects.warnings := by
  unfold readStyle at h
  obtain ⟨fills, hfills, h⟩ := bind_eq_ok.mp h
  obtain ⟨strokes, hstrokes, h⟩ := bind_eq_ok.mp h
  obtain ⟨effects, heffects, h⟩ := bind_eq_ok.mp h
  obtain ⟨cornerRadius, _, h⟩ := bind_eq_ok.mp h
  dsimp only at h
  -- What follows the typography is the same for text and for everything else.
  split at h
  all_goals
    obtain ⟨typography, _, h⟩ := bind_eq_ok.mp h
    obtain ⟨opacity, _, h⟩ := bind_eq_ok.mp h
    obtain ⟨rfl, rfl⟩ := Prod.mk.inj (pure_eq_ok.mp h)
    exact ⟨fills, strokes, effects, hfills, hstrokes, heffects, rfl, rfl, rfl, rfl⟩

/-- Whether the paints of a style are the entries of a node that can be drawn, list by list and in
their order. -/
structure DrawsPaints (node : Attributes) (style : Style) : Prop where
  fills : List.Forall₂ (fun entry fill ↦ readFill entry = .ok (.drawn fill))
    (PaintList.fills.drawn node) style.fills
  strokes : List.Forall₂ (fun entry stroke ↦ readStroke node entry = .ok (.drawn stroke))
    (PaintList.strokes.drawn node) style.strokes
  effects : List.Forall₂ (fun entry effect ↦ readEffect entry = .ok (.drawn effect))
    (PaintList.effects.drawn node) style.effects

/-- The warnings about the fills of a node, then its strokes, then its effects. -/
def paintWarnings (node : Attributes) : List String :=
  PaintList.fills.warnings node ++ PaintList.strokes.warnings node ++ PaintList.effects.warnings node

theorem readStyle_drawsPaints {node : Attributes} {kind : NodeKind} {style : Style}
    {warnings : List String} (h : readStyle node kind = .ok (style, warnings)) :
    DrawsPaints node style ∧ warnings = paintWarnings node := by
  obtain ⟨fills, strokes, effects, hfills, hstrokes, heffects, hf, hs, he, rfl⟩ := readStyle_eq_ok h
  obtain ⟨hfills, hfillWarnings⟩ := readVisible_settles readFill_settles hfills
  obtain ⟨hstrokes, hstrokeWarnings⟩ := readVisible_settles (readStroke_settles node) hstrokes
  obtain ⟨heffects, heffectWarnings⟩ := readVisible_settles readEffect_settles heffects
  refine ⟨⟨hf ▸ hfills, hs ▸ hstrokes, he ▸ heffects⟩, ?_⟩
  rw [hfillWarnings, hstrokeWarnings, heffectWarnings]
  rfl

/-- Every warning about paints names an entry of one of the lists. -/
theorem exists_of_mem_paintWarnings {node : Attributes} {warning : String}
    (h : warning ∈ paintWarnings node) : ∃ (l : PaintList) (entry : Attributes),
      warning = l.warning entry := by
  have hlist (l : PaintList) (h : warning ∈ l.warnings node) :
      ∃ (l : PaintList) (entry : Attributes), warning = l.warning entry := by
    obtain ⟨entry, _, rfl⟩ := List.mem_map.mp h
    exact ⟨l, entry, rfl⟩
  simp only [paintWarnings, List.mem_append] at h
  rcases h with (h | h) | h
  · exact hlist .fills h
  · exact hlist .strokes h
  · exact hlist .effects h

end DesignToWeb.Design
