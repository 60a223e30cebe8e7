import DesignToWeb.Proofs.Html.Pieces
import DesignToWeb.Proofs.Text.Replacing

/-!
# Escaping by replacements

A text can be escaped by six replacements, each made in the whole text after the one
before.  No replacement puts in a character that a later one looks for, so each
character of the text is replaced on its own.  An escaped text is read back, and only
its line breaks are tags.
-/

namespace DesignToWeb.Html

/-! ## Replacements one after the other -/

/-- The replacements that escape a text, in their order: the ampersand comes before those that put
one in, and the angle bracket before the line break. -/
def textReplacements : List (Char × String) :=
  [('&', "&amp;"), ('<', "&lt;"), ('>', "&gt;"), ('"', "&quot;"), ('\'', "&#x27;"), ('\n', "<br/>")]

def replaceInTurn (replacements : List (Char × String)) (text : String) : String :=
  replacements.foldl (fun sofar r ↦ sofar.replace r.1 r.2) text

/-- What is put in for a character that is looked at on its own. -/
def standIn (replacements : List (Char × String)) (c : Char) : String :=
  (replacements.lookup c).getD (String.singleton c)

/-- No replacement puts in a character that a later one looks for. -/
def Settled (replacements : List (Char × String)) : Prop :=
  replacements.Pairwise fun earlier later ↦ later.1 ∉ earlier.2.toList

instance (replacements : List (Char × String)) : Decidable (Settled replacements) :=
  inferInstanceAs (Decidable (List.Pairwise _ _))

variable {replacements : List (Char × String)}

theorem standIn_cons_self (c : Char) (replacement : String) :
    standIn ((c, replacement) :: replacements) c = replacement := by
  rw [standIn, List.lookup_cons_self, Option.getD_some]

theorem standIn_cons_of_ne {c d : Char} (h : d ≠ c) (replacement : String) :
    standIn ((c, replacement) :: replacements) d = standIn replacements d := by
  rw [standIn, List.lookup_cons, beq_eq_false_iff_ne.mpr h]
  rfl

theorem flatMap_standIn_of_notMem {cs : List Char} (h : ∀ r ∈ replacements, r.1 ∉ cs) :
    cs.flatMap (fun c ↦ (standIn replacements c).toList) = cs := by
  have hsame : ∀ c ∈ cs, (standIn replacements c).toList = [c] := by
    intro c hc
    have hnone : replacements.lookup c = none := by
      rw [List.lookup_eq_none_iff]
      intro r hr
      rw [bne_iff_ne]
      rintro rfl
      exact h r hr hc
    rw [standIn, hnone, Option.getD_none, String.toList_singleton]
  rw [List.flatMap_congr hsame, List.flatMap_singleton']

/-- Replacements made one after the other come to the replacement of each character on its own. -/
theorem replaceInTurn_eq (h : Settled replacements) (text : String) :
    replaceInTurn replacements text = String.join (text.toList.map (standIn replacements)) := by
  rw [← String.toList_inj, String.toList_join, List.flatMap_map]
  induction replacements generalizing text with
  | nil => simp [replaceInTurn, standIn]
  | cons first rest ih =>
      obtain ⟨c, r⟩ := first
      obtain ⟨hlater, hrest⟩ := List.pairwise_cons.mp h
      have hchar : ∀ d ∈ text.toList,
          (Text.replaceChar c r d).flatMap (fun d ↦ (standIn rest d).toList) =
            (standIn ((c, r) :: rest) d).toList := by
        intro d _
        unfold Text.replaceChar
        split
        · next hd => rw [hd, standIn_cons_self, flatMap_standIn_of_notMem hlater]
        · next hd => rw [standIn_cons_of_ne hd, List.flatMap_singleton]
      have hnext := ih hrest (text.replace c r)
      rw [Text.toList_replace, List.flatMap_assoc, List.flatMap_congr hchar] at hnext
      exact hnext

theorem settled_textReplacements : Settled textReplacements := by decide

theorem settled_take (n : Nat) : Settled (textReplacements.take n) :=
  List.Pairwise.sublist (List.take_sublist n _) settled_textReplacements

theorem standIn_textReplacements : standIn textReplacements = escapeTextChar := by
  funext c
  unfold escapeTextChar escapeChar
  split
  · next hbreak => rw [hbreak]; rfl
  · next hbreak =>
      split
      · rfl
      · rfl
      · rfl
      · rfl
      · rfl
      · next hamp hlt hgt hquote hsingle =>
          unfold textReplacements
          rw [standIn_cons_of_ne (hamp ·), standIn_cons_of_ne (hlt ·), standIn_cons_of_ne (hgt ·),
            standIn_cons_of_ne (hquote ·), standIn_cons_of_ne (hsingle ·),
            standIn_cons_of_ne hbreak]
          rfl

/-! ## Reading an escaped text -/

def Piece.char? : Piece → Option Char
  | .char c => some c
  | _ => none

/-- The characters that a text of markup shows. -/
def shownText (markup : String) : String :=
  String.ofList ((pieces markup.toList).filterMap Piece.char?)

theorem shownText_escapeText (text : String) : shownText (escapeText text) = text := by
  have hpieces := pieces_escapeText text []
  rw [List.append_nil, pieces, List.append_nil] at hpieces
  rw [shownText, hpieces, List.filterMap_map]
  have hchars : Piece.char? ∘ Piece.char = some := rfl
  rw [hchars, List.filterMap_some, String.ofList_toList]

/-! ## Angle brackets -/

theorem eq_br_of_mem_escapeTextChar {c : Char} (h : '<' ∈ (escapeTextChar c).toList) :
    (escapeTextChar c).toList = ['<', 'b', 'r', '/', '>'] := by
  unfold escapeTextChar at h ⊢
  split
  · rfl
  · next hc =>
      rw [if_neg hc] at h
      exact absurd h (notMem_escapeChar (by decide) c)

/-- Wherever an angle bracket opens in an escaped text, a line break follows. -/
theorem br_prefix_of_escaped {cs before after : List Char}
    (h : cs.flatMap (fun c ↦ (escapeTextChar c).toList) = before ++ '<' :: after) :
    ['b', 'r', '/', '>'] <+: after := by
  induction cs generalizing before with
  | nil => simp at h
  | cons c cs ih =>
      rw [List.flatMap_cons] at h
      rcases List.append_eq_append_iff.mp h with ⟨more, _, hrest⟩ | ⟨more, hchar, hrest⟩
      · exact ih hrest
      · cases more with
        | nil =>
            have hrest : _ = [] ++ '<' :: after := hrest.symm
            exact ih hrest
        | cons d more =>
            obtain ⟨rfl, rfl⟩ := List.cons_eq_cons.mp hrest
            have hmem : '<' ∈ (escapeTextChar c).toList := by
              rw [hchar]
              simp
            rw [eq_br_of_mem_escapeTextChar hmem] at hchar
            -- the bracket is the first of the five characters
            cases before with
            | nil =>
                obtain ⟨-, rfl⟩ := List.cons_eq_cons.mp hchar
                exact List.prefix_append _ _
            | cons d before =>
                obtain ⟨-, htail⟩ := List.cons_eq_cons.mp hchar
                have hlt : '<' ∈ ['b', 'r', '/', '>'] := by
                  rw [htail]
                  simp
                exact absurd hlt (by decide)

/-! ## The whole -/

/-- Escaping looks at each character on its own, and nothing is lost.  After any number of the
replacements, each made in the whole text, every character has been replaced on its own, and after
all of them the text is escaped; so texts can be escaped in parts, and nothing that has been put in
is escaped again.  The text is read back from what was written, so different texts stay different;
and the only tags in it are line breaks. -/
theorem escapeText_faithful :
    (∀ n text, replaceInTurn (textReplacements.take n) text =
      String.join (text.toList.map (standIn (textReplacements.take n)))) ∧
    (∀ text, replaceInTurn textReplacements text = escapeText text) ∧
    (∀ s t, escapeText (s ++ t) = escapeText s ++ escapeText t) ∧
    (∀ text, shownText (escapeText text) = text) ∧
    Function.Injective escapeText ∧
    ∀ text before after, escapeText text = before ++ "<" ++ after →
      ∃ rest, after = "br/>" ++ rest := by
  refine ⟨fun n ↦ replaceInTurn_eq (settled_take n), fun text ↦ ?_, escapeText_append,
    shownText_escapeText, Function.LeftInverse.injective shownText_escapeText, ?_⟩
  · rw [replaceInTurn_eq settled_textReplacements, standIn_textReplacements, escapeText]
  · intro text before after h
    have hlist := congrArg String.toList h
    rw [escapeText, String.toList_join, List.flatMap_map, String.toList_append,
      String.toList_append, List.append_assoc] at hlist
    obtain ⟨rest, hrest⟩ := br_prefix_of_escaped hlist
    refine ⟨String.ofList rest, ?_⟩
    have hafter : after.toList = "br/>".toList ++ rest := hrest.symm
    rw [← String.toList_inj, hafter]
    simp

/-- A text that looks like an escaped one keeps its ampersand, and its line break is a tag. -/
theorem escapeText_faithful_couplet :
    escapeText "&lt;\nend" = "&amp;lt;" ++ "<" ++ "br/>end" ∧ ∃ rest, "br/>end" = "br/>" ++ rest :=
  have h : escapeText "&lt;\nend" = "&amp;lt;" ++ "<" ++ "br/>end" := by decide
  ⟨h, escapeText_faithful.2.2.2.2.2 _ _ _ h⟩

end DesignToWeb.Html
