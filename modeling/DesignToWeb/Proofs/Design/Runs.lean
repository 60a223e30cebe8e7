import DesignToWeb.Design.Typography
import DesignToWeb.Proofs.Outcome

/-!
# Runs and their text

The runs of a text are stretches of its characters.  Whatever the keys and the
overrides are, every character is in one run and the runs stand in the order of
the text.
-/

namespace DesignToWeb.Design

open Outcome

/-- Every character has one key, be there too few or too many. -/
theorem keyed_map_fst (keys : List Json) (cs : List Char) : (keyed keys cs).map Prod.fst = cs := by
  induction cs generalizing keys with
  | nil => rfl
  | cons c cs ih => rw [keyed, List.map_cons, ih]

/-- Stretches put one after the other are the characters that they were cut from. -/
theorem stretches_flatMap_snd (key : Json) (begun : List Char) (ps : List (Char × Json)) :
    (stretches key begun ps).flatMap Prod.snd = begun.reverse ++ ps.map Prod.fst := by
  induction ps generalizing key begun with
  | nil => simp [stretches]
  | cons p ps ih =>
      obtain ⟨c, k⟩ := p
      unfold stretches
      split
      · rw [ih, List.reverse_cons, List.append_assoc]
        rfl
      · rw [List.flatMap_cons, ih]
        rfl

theorem readRun_eq_ok {table : Attributes} {base : Typography} {key : Json} {text : List Char}
    {run : TextRun} (h : readRun table base key text = .ok run) :
    (findOverride? table key = none ∧ run = { text := String.ofList text }) ∨
      ∃ override typography color, findOverride? table key = some override ∧
        (if hasTypeFields override then some <$> readTypography override base else pure none) =
          .ok typography ∧
        readRunColor (override.get "fills").objects = .ok color ∧
        run = { text := String.ofList text, typography, color } := by
  unfold readRun at h
  cases hoverride : findOverride? table key with
  | none =>
      rw [hoverride] at h
      exact .inl ⟨rfl, (Except.ok.inj h).symm⟩
  | some override =>
      simp only [hoverride] at h
      split at h
      · next htype =>
        obtain ⟨typography, htypography, h⟩ := bind_eq_ok.mp h
        obtain ⟨color, hcolor, h⟩ := bind_eq_ok.mp h
        refine .inr ⟨override, typography, color, rfl, ?_, hcolor, (pure_eq_ok.mp h).symm⟩
        rwa [if_pos htype]
      · next htype =>
        obtain ⟨typography, htypography, h⟩ := bind_eq_ok.mp h
        obtain ⟨color, hcolor, h⟩ := bind_eq_ok.mp h
        refine .inr ⟨override, typography, color, rfl, ?_, hcolor, (pure_eq_ok.mp h).symm⟩
        rwa [if_neg htype]

/-- An override changes how a run looks, never what it says. -/
theorem readRun_text {table : Attributes} {base : Typography} {key : Json} {text : List Char}
    {run : TextRun} (h : readRun table base key text = .ok run) : run.text = String.ofList text := by
  obtain ⟨_, rfl⟩ | ⟨_, _, _, _, _, _, rfl⟩ := readRun_eq_ok h
  · rfl
  · rfl

theorem readRuns_mapM_text {table : Attributes} {base : Typography}
    {parts : List (Json × List Char)} {runs : List TextRun}
    (h : parts.mapM (fun part ↦ readRun table base part.1 part.2) = .ok runs) :
    runs.flatMap (·.text.toList) = parts.flatMap Prod.snd := by
  have hparts := mapM_eq_ok.mp h
  clear h
  induction hparts with
  | nil => rfl
  | cons hrun _ ih =>
      rw [List.flatMap_cons, List.flatMap_cons, ih, readRun_text hrun, String.toList_ofList]

/-- A text has runs only if it has characters and a key is given.  They are its stretches. -/
theorem readRuns_eq_ok {node : Attributes} {base : Typography} {runs : List TextRun}
    (h : readRuns node base = .ok runs) :
    (runs = [] ∧ (characters node = "" ∨
        (node.get "characterStyleOverrides").items.any Json.isGiven = false)) ∨
      ∃ c key rest, keyed (node.get "characterStyleOverrides").items (characters node).toList =
          (c, key) :: rest ∧
        (stretches key [c] rest).mapM (fun part ↦ readRun
          (node.get "styleOverrideTable").attributes base part.1 part.2) = .ok runs := by
  unfold readRuns at h
  cases hkeyed : keyed (node.get "characterStyleOverrides").items (characters node).toList with
  | nil =>
      simp only [hkeyed] at h
      have hall := congrArg (List.map Prod.fst) hkeyed
      rw [keyed_map_fst] at hall
      exact .inl ⟨(Except.ok.inj h).symm, .inl (String.toList_eq_nil_iff.mp hall)⟩
  | cons p rest =>
      obtain ⟨c, key⟩ := p
      simp only [hkeyed] at h
      split at h
      · exact .inr ⟨c, key, rest, rfl, h⟩
      · next hgiven =>
        exact .inl ⟨(Except.ok.inj h).symm, .inr (Bool.eq_false_iff.mpr hgiven)⟩

/-- A text has no runs, or its runs put one after the other are the text. -/
theorem readRuns_text {node : Attributes} {base : Typography} {runs : List TextRun}
    (h : readRuns node base = .ok runs) :
    runs = [] ∨ runs.flatMap (·.text.toList) = (characters node).toList := by
  obtain ⟨hnil, _⟩ | ⟨c, key, rest, hkeyed, hruns⟩ := readRuns_eq_ok h
  · exact .inl hnil
  · right
    have hall := congrArg (List.map Prod.fst) hkeyed
    rw [keyed_map_fst] at hall
    rw [readRuns_mapM_text hruns, stretches_flatMap_snd, hall]
    rfl

/-! ## Runs and overrides -/

def overrides (node : Attributes) : List Attributes :=
  (node.get "styleOverrideTable").attributes.fields.map (·.2.attributes)

theorem mem_overrides {node override : Attributes} {key : Json}
    (h : findOverride? (node.get "styleOverrideTable").attributes key = some override) :
    override ∈ overrides node := by
  unfold findOverride? at h
  split at h
  · cases hentry : (node.get "styleOverrideTable").attributes.get? key.label with
    | none =>
        rw [Attributes.get, hentry] at h
        exact nomatch h
    | some entry =>
        rw [Attributes.get, hentry] at h
        refine List.mem_map.mpr ⟨_, mem_of_lookup hentry, ?_⟩
        exact congrArg (Option.getD · .empty) h
  · exact nomatch h

/-- Whether the type and the colour of a run, as far as it has them, are read from an override. -/
structure ReadFrom (override : Attributes) (base : Typography) (run : TextRun) : Prop where
  typography : ∀ t, run.typography = some t → readTypography override base = .ok t
  color : readRunColor (override.get "fills").objects = .ok run.color

theorem readFrom_of_readRun {table : Attributes} {base : Typography} {key : Json}
    {text : List Char} {run : TextRun} (h : readRun table base key text = .ok run) :
    (run.typography = none ∧ run.color = none) ∨
      ∃ override, findOverride? table key = some override ∧ ReadFrom override base run := by
  obtain ⟨_, rfl⟩ | ⟨override, typography, color, hoverride, htypography, hcolor, rfl⟩ :=
    readRun_eq_ok h
  · exact .inl ⟨rfl, rfl⟩
  · refine .inr ⟨override, hoverride, fun t ht ↦ ?_, hcolor⟩
    split at htypography
    · obtain ⟨own, hown, rfl⟩ := map_eq_ok.mp htypography
      exact Option.some.inj ht ▸ hown
    · obtain rfl := pure_eq_ok.mp htypography
      exact nomatch ht

/-- A run looks like the text around it, or as an override of its node says. -/
theorem exists_override_of_mem {node : Attributes} {base : Typography} {runs : List TextRun}
    (h : readRuns node base = .ok runs) {run : TextRun} (hrun : run ∈ runs) :
    (run.typography = none ∧ run.color = none) ∨
      ∃ override ∈ overrides node, ReadFrom override base run := by
  obtain ⟨rfl, _⟩ | ⟨c, key, rest, _, hruns⟩ := readRuns_eq_ok h
  · exact absurd hrun List.not_mem_nil
  · obtain ⟨stretch, _, hread⟩ := exists_of_mem_right hruns hrun
    refine (readFrom_of_readRun hread).imp_right ?_
    rintro ⟨override, hoverride, hfrom⟩
    exact ⟨override, mem_overrides hoverride, hfrom⟩

end DesignToWeb.Design
