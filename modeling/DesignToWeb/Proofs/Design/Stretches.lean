import DesignToWeb.Design.Fill
import DesignToWeb.Proofs.Design.Runs
import DesignToWeb.Proofs.Json.Label

/-!
# Where runs begin and how they look

A run goes on for as long as the keys of its characters equal the key of its
first character, and that one key decides how the run looks.  Keys are counted
in code units, runs in characters.
-/

namespace DesignToWeb.Design

open Outcome

/-! ## Keys of characters -/

def totalUnits : List Char → Nat
  | [] => 0
  | c :: text => codeUnits c + totalUnits text

/-- The key of the character at a place of a text: it stands after as many keys as there are code
units before the character, and is zero past the end of the keys. -/
def keyAt (keys : List Json) (text : List Char) (i : Nat) : Json :=
  keys.getD (totalUnits (text.take i)) (.int 0)

/-- A text, every character with its key. -/
def withKeys (keys : List Json) (text : List Char) : List (Char × Json) :=
  text.mapIdx fun i c ↦ (c, keyAt keys text i)

theorem keyAt_cons_succ (keys : List Json) (c : Char) (text : List Char) (i : Nat) :
    keyAt keys (c :: text) (i + 1) = keyAt (keys.drop (codeUnits c)) text i := by
  unfold keyAt
  rw [List.take_succ_cons, totalUnits, List.getD_eq_getElem?_getD, List.getD_eq_getElem?_getD,
    List.getElem?_drop]

theorem keyed_eq_withKeys (keys : List Json) (text : List Char) :
    keyed keys text = withKeys keys text := by
  induction text generalizing keys with
  | nil => rfl
  | cons c text ih =>
      rw [keyed, ih, withKeys, withKeys, List.mapIdx_cons]
      congr 1
      · cases keys <;> rfl
      · simp only [keyAt_cons_succ]

/-! ## Cutting a text by its keys -/

/-- A stretch of characters with their keys.  It has a first character. -/
structure Stretch where
  first : Char
  key : Json
  more : List (Char × Json)

namespace Stretch

def keyed (s : Stretch) : List (Char × Json) := (s.first, s.key) :: s.more

def characters (s : Stretch) : List Char := s.keyed.map Prod.fst

def extend (s : Stretch) (p : Char × Json) : Stretch := { s with more := s.more ++ [p] }

theorem keyed_extend (s : Stretch) (p : Char × Json) : (s.extend p).keyed = s.keyed ++ [p] := rfl

theorem reverse_characters_extend (s : Stretch) (p : Char × Json) :
    (s.extend p).characters.reverse = p.1 :: s.characters.reverse := by
  rw [characters, keyed_extend, List.map_append, List.reverse_append]
  rfl

end Stretch

/-- Whether stretches are what a text is cut into at the characters whose key is another one than
that of the first character of their stretch. -/
structure Cuts (ss : List Stretch) (ps : List (Char × Json)) : Prop where
  whole : ss.flatMap Stretch.keyed = ps
  alike : ∀ s ∈ ss, ∀ p ∈ s.more, p.2.same s.key = true
  differ : ss.IsChain fun s next ↦ next.key.same s.key = false

/-- The induction is on the characters that are still to come.  The stretch that has been begun
grows by every character of its key. -/
theorem exists_cuts_stretches (s : Stretch) (hs : ∀ p ∈ s.more, p.2.same s.key = true)
    (ps : List (Char × Json)) :
    ∃ s' ss, s'.key = s.key ∧ Cuts (s' :: ss) (s.keyed ++ ps) ∧
      stretches s.key s.characters.reverse ps =
        (s' :: ss).map fun t ↦ (t.key, t.characters) := by
  induction ps generalizing s with
  | nil =>
      refine ⟨s, [], rfl, ⟨?_, ?_, List.IsChain.singleton s⟩, ?_⟩
      · rw [List.flatMap_cons, List.flatMap_nil]
      · intro t ht
        rw [List.mem_singleton.mp ht]
        exact hs
      · rw [stretches, List.reverse_reverse]
        rfl
  | cons p ps ih =>
      obtain ⟨c, k⟩ := p
      cases hk : k.same s.key with
      | true =>
          -- the character belongs to the stretch that has been begun
          have hmore : ∀ p ∈ (s.extend (c, k)).more, p.2.same s.key = true := by
            intro p hp
            rcases List.mem_append.mp hp with hp | hp
            · exact hs p hp
            · rw [List.mem_singleton.mp hp]
              exact hk
          obtain ⟨s', ss, hkey, hcuts, heq⟩ := ih (s.extend (c, k)) hmore
          refine ⟨s', ss, hkey, ?_, ?_⟩
          · rw [Stretch.keyed_extend, List.append_assoc] at hcuts
            exact hcuts
          · rw [stretches, if_pos hk, ← heq, Stretch.reverse_characters_extend]
            rfl
      | false =>
          -- the character begins a stretch, and the one before it is complete
          obtain ⟨s', ss, hkey, hcuts, heq⟩ :=
            ih ⟨c, k, []⟩ fun p hp ↦ absurd hp List.not_mem_nil
          refine ⟨s, s' :: ss, rfl, ⟨?_, ?_, ?_⟩, ?_⟩
          · rw [List.flatMap_cons, hcuts.whole]
            rfl
          · intro t ht
            rcases List.mem_cons.mp ht with rfl | ht
            · exact hs
            · exact hcuts.alike t ht
          · refine List.isChain_cons_cons.mpr ⟨?_, hcuts.differ⟩
            rw [hkey]
            exact hk
          · rw [stretches, if_neg (by rw [hk]; exact Bool.false_ne_true), List.reverse_reverse,
              List.map_cons]
            exact congrArg _ heq

/-! ## The colour of a run -/

theorem readFills_cons_eq_ok {paint : Attributes} {paints : List Attributes} {fills : Readings Fill}
    (h : readFills (paint :: paints) = .ok fills) (hvisible : isVisible paint = true) :
    ∃ reading rest, readFill paint = .ok reading ∧ readFills paints = .ok rest ∧
      fills.items = reading.value?.toList ++ rest.items := by
  obtain ⟨readings, hreadings, hfills⟩ := bind_eq_ok.mp h
  rw [List.filter_cons_of_pos hvisible, List.mapM_cons] at hreadings
  obtain ⟨reading, hreading, hreadings⟩ := bind_eq_ok.mp hreadings
  obtain ⟨rest, hrest, hreadings⟩ := bind_eq_ok.mp hreadings
  refine ⟨reading, .ofList rest, hreading, bind_eq_ok.mpr ⟨rest, hrest, rfl⟩, ?_⟩
  rw [← pure_eq_ok.mp hfills, ← pure_eq_ok.mp hreadings]
  cases hvalue : reading.value? with
  | none => exact List.filterMap_cons_none hvalue
  | some fill => exact List.filterMap_cons_some hvalue

theorem readFills_cons_of_hidden {paint : Attributes} (paints : List Attributes)
    (hvisible : isVisible paint = false) : readFills (paint :: paints) = readFills paints := by
  unfold readFills readVisible
  rw [List.filter_cons_of_neg (by rw [hvisible]; exact Bool.false_ne_true)]

theorem readFill_of_solid {paint : Attributes} (h : (paint.get "type").isStr "SOLID" = true) :
    readFill paint = (do return .drawn (.solid (← readOwnColor paint))) := by
  have htype : (paint.get "type").labelOrEmpty = "SOLID" := by
    unfold Json.isStr at h
    split at h
    · next t ht =>
        rw [ht, eq_of_beq h]
        rfl
    · exact Bool.noConfusion h
  unfold readFill
  rw [htype]
  rfl

/-- Only a paint of the one type comes to one colour. -/
theorem color?_of_readFill {paint : Attributes} {reading : Reading Fill}
    (htype : (paint.get "type").isStr "SOLID" = false) (h : readFill paint = .ok reading) :
    reading.value?.bind Fill.color? = none := by
  unfold readFill at h
  split at h
  · next hsolid =>
      rw [Json.isStr_of_labelOrEmpty hsolid (by decide) (by decide)] at htype
      exact Bool.noConfusion htype
  all_goals
    first
    | obtain ⟨stops, _, h⟩ := bind_eq_ok.mp h
      obtain ⟨heading, _, h⟩ := bind_eq_ok.mp h
      rw [← pure_eq_ok.mp h]
      rfl
    | obtain ⟨part, _, h⟩ := bind_eq_ok.mp h
      rw [← pure_eq_ok.mp h]
      rfl
    | rw [← pure_eq_ok.mp h]
      rfl

theorem readRunColor_cons_of_neg {paint : Attributes} (paints : List Attributes)
    (h : ((paint.get "type").isStr "SOLID" && isVisible paint) = false) :
    readRunColor (paint :: paints) = readRunColor paints := by
  unfold readRunColor
  rw [List.find?_cons_of_neg (by rw [h]; exact Bool.false_ne_true)]

/-- The colour of a run is that of the first fill of one colour that its fills come to. -/
theorem readRunColor_of_readFills {paints : List Attributes} {fills : Readings Fill}
    (h : readFills paints = .ok fills) :
    readRunColor paints = .ok (fills.items.findSome? Fill.color?) := by
  induction paints generalizing fills with
  | nil =>
      rw [← pure_eq_ok.mp h]
      rfl
  | cons paint paints ih =>
      cases hvisible : isVisible paint with
      | false =>
          rw [readFills_cons_of_hidden paints hvisible] at h
          rw [← ih h, readRunColor_cons_of_neg paints (by rw [hvisible, Bool.and_false])]
      | true =>
          obtain ⟨reading, rest, hreading, hrest, hitems⟩ := readFills_cons_eq_ok h hvisible
          cases htype : (paint.get "type").isStr "SOLID" with
          | true =>
              -- a fill of the one type has a colour, so the search ends with it
              rw [readFill_of_solid htype] at hreading
              obtain ⟨color, hcolor, hreading⟩ := bind_eq_ok.mp hreading
              rw [hitems, ← pure_eq_ok.mp hreading, readRunColor,
                List.find?_cons_of_pos (by rw [htype, hvisible]; rfl)]
              dsimp only
              rw [hcolor]
              rfl
          | false =>
              -- no other fill has a single colour, so the search goes on
              have hnone := color?_of_readFill htype hreading
              rw [hitems, List.findSome?_append,
                readRunColor_cons_of_neg paints (by rw [htype, Bool.false_and])]
              cases hvalue : reading.value? with
              | none => exact ih hrest
              | some fill =>
                  rw [hvalue, Option.bind_some] at hnone
                  rw [Option.toList_some, List.findSome?_singleton, hnone]
                  exact ih hrest

/-! ## The style of a run -/

/-- Whether a run looks as an override says. -/
structure Overridden (override : Attributes) (base : Typography) (run : TextRun) : Prop where
  typed : (∃ field ∈ override.fields, field.1 ≠ "fills") →
    ∃ typography, readTypography override base = .ok typography ∧
      run.typography = some typography
  untyped : (∀ field ∈ override.fields, field.1 = "fills") → run.typography = none
  colored : ∀ fills, readFills (override.get "fills").objects = .ok fills →
    run.color = fills.items.findSome? Fill.color?

/-- Whether a run looks as a key and a table of overrides say.  Without an override it looks like
the base. -/
structure StyledBy (table : Attributes) (base : Typography) (key : Json) (run : TextRun) :
    Prop where
  plain : (key.isGiven = false ∨ ∀ fields, table.get key.label ≠ .obj fields) →
    run.typography = none ∧ run.color = none
  overridden : key.isGiven = true → ∀ fields, table.get key.label = .obj fields →
    Overridden ⟨fields⟩ base run

theorem findOverride?_of_not_given {table : Attributes} {key : Json}
    (h : key.isGiven = false ∨ ∀ fields, table.get key.label ≠ .obj fields) :
    findOverride? table key = none := by
  unfold findOverride?
  split
  · next hgiven =>
      rcases h with h | h
      · exact Bool.noConfusion (hgiven.symm.trans h)
      · cases hentry : table.get key.label with
        | obj fields => exact absurd hentry (h fields)
        | _ => rfl
  · rfl

theorem hasTypeFields_iff {override : Attributes} :
    hasTypeFields override = true ↔ ∃ field ∈ override.fields, field.1 ≠ "fills" := by
  unfold hasTypeFields
  rw [List.any_eq_true]
  simp only [bne_iff_ne]

theorem readRun_overridden {table override : Attributes} {base : Typography} {key : Json}
    {text : List Char} {run : TextRun} (hfind : findOverride? table key = some override)
    (h : readRun table base key text = .ok run) : Overridden override base run := by
  obtain ⟨hnone, _⟩ | ⟨_, typography, color, hoverride, htypography, hcolor, rfl⟩ :=
    readRun_eq_ok h
  · exact nomatch hnone.symm.trans hfind
  · obtain rfl := Option.some.inj (hoverride.symm.trans hfind)
    refine ⟨fun hfields ↦ ?_, fun hfills ↦ ?_, fun fills hfills ↦ ?_⟩
    · rw [if_pos (hasTypeFields_iff.mpr hfields)] at htypography
      obtain ⟨t, ht, rfl⟩ := map_eq_ok.mp htypography
      exact ⟨t, ht, rfl⟩
    · split at htypography
      · next htype =>
        obtain ⟨field, hfield, hname⟩ := hasTypeFields_iff.mp htype
        exact absurd (hfills field hfield) hname
      · exact (pure_eq_ok.mp htypography).symm
    · exact Except.ok.inj (hcolor.symm.trans (readRunColor_of_readFills hfills))

theorem readRun_styledBy {table : Attributes} {base : Typography} {key : Json} {text : List Char}
    {run : TextRun} (h : readRun table base key text = .ok run) : StyledBy table base key run := by
  constructor
  · intro hplain
    obtain ⟨_, rfl⟩ | ⟨_, _, _, hoverride, _⟩ := readRun_eq_ok h
    · exact ⟨rfl, rfl⟩
    · rw [findOverride?_of_not_given hplain] at hoverride
      exact nomatch hoverride
  · intro hgiven fields hentry
    refine readRun_overridden ?_ h
    rw [findOverride?, if_pos hgiven, hentry]
    rfl

/-! ## The runs of a text -/

theorem readRun_text_ne_empty {table : Attributes} {base : Typography} {s : Stretch}
    {run : TextRun} (h : readRun table base s.key s.characters = .ok run) : run.text ≠ "" := by
  rw [readRun_text h]
  intro hempty
  exact List.cons_ne_nil s.first _ (String.ofList_eq_empty_iff.mp hempty)

/-- Whether no run of a text can look other than the text does. -/
def isUniform (node : Attributes) : Bool :=
  characters node == "" || !(node.get "characterStyleOverrides").items.any Json.isGiven

theorem isUniform_iff {node : Attributes} :
    isUniform node = true ↔ characters node = "" ∨
      ∀ key ∈ (node.get "characterStyleOverrides").items, key.isGiven = false := by
  unfold isUniform
  rw [Bool.or_eq_true, beq_iff_eq, Bool.not_eq_true', List.any_eq_false]
  simp only [Bool.not_eq_true]

theorem readRuns_of_isUniform {node : Attributes} (base : Typography)
    (h : isUniform node = true) : readRuns node base = .ok [] := by
  unfold readRuns
  rcases Bool.or_eq_true_iff.mp h with h | h
  · rw [eq_of_beq h]
    rfl
  · rw [Bool.not_eq_true'] at h
    dsimp only
    split
    · rfl
    · rw [h]
      rfl

theorem readRuns_of_not_isUniform {node : Attributes} {base : Typography} {runs : List TextRun}
    (h : readRuns node base = .ok runs) (huniform : isUniform node = false) :
    ∃ s ss, Cuts (s :: ss) (withKeys (node.get "characterStyleOverrides").items
        (characters node).toList) ∧
      List.Forall₂ (fun s run ↦ readRun (node.get "styleOverrideTable").attributes base s.key
        s.characters = .ok run) (s :: ss) runs := by
  obtain ⟨htext, hgiven⟩ := Bool.or_eq_false_iff.mp huniform
  rw [← keyed_eq_withKeys]
  obtain ⟨_, hempty | hnone⟩ | ⟨c, key, rest, hkeyed, hread⟩ := readRuns_eq_ok h
  · exact absurd hempty (beq_eq_false_iff_ne.mp htext)
  · rw [hnone] at hgiven
    exact Bool.noConfusion hgiven
  · obtain ⟨s, ss, hkey, hcuts, heq⟩ :=
      exists_cuts_stretches ⟨c, key, []⟩ (fun p hp ↦ absurd hp List.not_mem_nil) rest
    rw [hkeyed]
    refine ⟨s, ss, hcuts, ?_⟩
    rw [show stretches key [c] rest = _ from heq] at hread
    exact List.forall₂_map_left_iff.mp (mapM_eq_ok.mp hread)

/-- A text without characters or without given keys has no runs.  Any other text is cut into
stretches at the characters whose key is another one than that of the first character of their
stretch; every stretch is a run, and the key of its first character decides how it looks. -/
theorem readRuns_areStretches {node : Attributes} {base : Typography} {runs : List TextRun}
    (h : readRuns node base = .ok runs) :
    ((characters node = "" ∨
        ∀ key ∈ (node.get "characterStyleOverrides").items, key.isGiven = false) → runs = []) ∧
      (characters node ≠ "" →
        (∃ key ∈ (node.get "characterStyleOverrides").items, key.isGiven = true) →
        (∀ run ∈ runs, run.text ≠ "") ∧
        runs.flatMap (·.text.toList) = (characters node).toList ∧
        ∃ ss, Cuts ss (withKeys (node.get "characterStyleOverrides").items
            (characters node).toList) ∧
          List.Forall₂ (fun s run ↦ run.text = String.ofList s.characters ∧
            StyledBy (node.get "styleOverrideTable").attributes base s.key run) ss runs) := by
  refine ⟨fun huniform ↦ ?_, fun htext hgiven ↦ ?_⟩
  · rw [readRuns_of_isUniform base (isUniform_iff.mpr huniform)] at h
    exact (Except.ok.inj h).symm
  · have huniform : isUniform node = false := by
      refine Bool.eq_false_iff.mpr fun huniform ↦ ?_
      rcases isUniform_iff.mp huniform with hempty | hnone
      · exact htext hempty
      · obtain ⟨key, hkey, hgiven⟩ := hgiven
        exact Bool.noConfusion (hgiven.symm.trans (hnone key hkey))
    obtain ⟨s, ss, hcuts, hruns⟩ := readRuns_of_not_isUniform h huniform
    refine ⟨fun run hrun ↦ ?_, ?_, s :: ss, hcuts, ?_⟩
    · obtain ⟨t, _, ht⟩ := exists_of_mem_right (mapM_eq_ok.mpr hruns) hrun
      exact readRun_text_ne_empty ht
    · refine (readRuns_text h).resolve_left fun hempty ↦ ?_
      rw [hempty] at hruns
      exact nomatch hruns
    · exact hruns.imp fun _ _ hrun ↦ ⟨readRun_text hrun, readRun_styledBy hrun⟩

/-- A text whose second character takes two keys.  The last of its three given keys equals the one
before it, and its last character has no key. -/
def patchwork : Attributes :=
  ⟨[("characters", .str "A😀b!"),
    ("characterStyleOverrides", .arr [.int 0, .int 7, .int 7, .float 7]),
    ("styleOverrideTable", .obj [("7", .obj [
      ("fills", .arr [.obj [("type", .str "SOLID"), ("color", .obj [("r", .int 1)])]])])])]⟩

/-- The text is cut into three runs, and the one in the middle is red. -/
theorem readRuns_areStretches_patchwork :
    readRuns patchwork {} = .ok [{ text := "A" }, { text := "😀b", color := some ⟨1, 0, 0, 1⟩ },
      { text := "!" }] ∧
    ∃ s t u, Cuts [s, t, u] (withKeys [.int 0, .int 7, .int 7, .float 7] "A😀b!".toList) ∧
      t.characters = "😀b".toList ∧
      StyledBy (patchwork.get "styleOverrideTable").attributes {} t.key
        { text := "😀b", color := some ⟨1, 0, 0, 1⟩ } := by
  have hruns : readRuns patchwork {} = .ok [{ text := "A" },
      { text := "😀b", color := some ⟨1, 0, 0, 1⟩ }, { text := "!" }] :=
    eq_ok_of_isOkWith (by decide +kernel)
  obtain ⟨_, _, ss, hcuts, hall⟩ := (readRuns_areStretches hruns).2 (by decide)
    ⟨.int 7, List.mem_cons_of_mem _ List.mem_cons_self, rfl⟩
  obtain ⟨s, tu, _, htu, rfl⟩ := List.forall₂_cons_right_iff.mp hall
  obtain ⟨t, us, ⟨htext, hstyle⟩, hus, rfl⟩ := List.forall₂_cons_right_iff.mp htu
  obtain ⟨u, rest, _, hrest, rfl⟩ := List.forall₂_cons_right_iff.mp hus
  rw [List.forall₂_nil_right_iff.mp hrest] at hcuts
  refine ⟨hruns, s, t, u, hcuts, ?_, hstyle⟩
  rw [show "😀b" = String.ofList t.characters from htext, String.toList_ofList]

end DesignToWeb.Design
