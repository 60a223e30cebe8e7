import DesignToWeb.Json.Label
import DesignToWeb.Proofs.Binary64.Text

/-!
# What labels say of their values

A label is never empty unless it is that of the empty text, and the label of a value
that is no text looks like one: it is a numeral, one of three words, or it begins with
a bracket.
-/

namespace DesignToWeb

namespace Binary64

theorem positional_ne_nil (ds : List Char) (point : Int) : Decimal.positional ds point ≠ [] := by
  unfold Decimal.positional
  split
  · exact List.cons_ne_nil _ _
  · split <;> simp

theorem scientific_ne_nil (ds : List Char) (point : Int) : Decimal.scientific ds point ≠ [] := by
  simp [Decimal.scientific]

theorem magnitudeText_ne_nil (m : Magnitude) : magnitudeText m ≠ [] := by
  unfold magnitudeText Decimal.text
  split
  · exact List.cons_ne_nil _ _
  · dsimp only
    split
    · exact positional_ne_nil _ _
    · exact scientific_ne_nil _ _

theorem text_ne_empty (x : Binary64) : x.text ≠ "" := by
  cases x with
  | finite negative magnitude =>
      intro h
      have hlist := congrArg String.toList h
      rw [text, String.toList_ofList] at hlist
      exact magnitudeText_ne_nil magnitude (List.append_eq_nil_iff.mp hlist).2
  | infinite negative => cases negative <;> decide
  | nan => decide

end Binary64

namespace Json

theorem append_ne_empty {s : String} (h : s ≠ "") (t : String) : s ++ t ≠ "" := by
  intro hempty
  have hlist := congrArg String.toList hempty
  rw [String.toList_append] at hlist
  exact h (String.toList_eq_nil_iff.mp (List.append_eq_nil_iff.mp hlist).1)

theorem toString_int_ne_empty (n : Int) : toString n ≠ "" := by
  have hnat (n : Nat) : toString n ≠ "" := by
    intro h
    have hlist : (toString n).toList = Nat.toDigits 10 n := Nat.toList_repr
    rw [h] at hlist
    exact Nat.toDigits_ne_nil hlist.symm
  cases n with
  | ofNat n => exact hnat n
  | negSucc n => exact append_ne_empty (s := "-") (by decide) (toString (n + 1))

/-- A value that counts as given has a label. -/
theorem label_ne_empty {j : Json} (h : j.isGiven = true) : j.label ≠ "" := by
  cases j with
  | null => decide
  | bool b => cases b <;> decide
  | int n => exact toString_int_ne_empty n
  | float x => exact x.text_ne_empty
  | nan => decide
  | str s => exact bne_iff_ne.mp h
  | arr items => exact append_ne_empty (append_ne_empty (by decide) _) "]"
  | obj fields => exact append_ne_empty (append_ne_empty (by decide) _) "\x7d"

theorem labelOr_ne_empty {fallback : String} (h : fallback ≠ "") (j : Json) :
    j.labelOr fallback ≠ "" := by
  unfold labelOr
  split
  · next hgiven => exact label_ne_empty hgiven
  · exact h

/-- Whether a text is how a value other than a text is written. -/
def isValueLabel (s : String) : Bool :=
  ["None", "True", "False"].contains s || s.toList.all isNumeralChar ||
    s.toList.head?.any fun c ↦ c == '[' || c == '\x7b'

theorem isValueLabel_of_madeOf {s : String} (h : Text.MadeOf isNumeralChar s) :
    isValueLabel s = true := by
  have hall : s.toList.all isNumeralChar = true := List.all_eq_true.mpr h
  rw [isValueLabel, hall, Bool.or_true, Bool.true_or]

theorem isValueLabel_of_head {s : String} {c : Char} (h : s.toList.head? = some c)
    (hc : c = '[' ∨ c = '\x7b') : isValueLabel s = true := by
  rw [isValueLabel, h]
  rcases hc with rfl | rfl
  · exact Bool.or_true _
  · exact Bool.or_true _

/-- A text that no other value is written as is the label of itself alone. -/
theorem eq_str_of_label {j : Json} {s : String} (h : j.label = s) (hs : isValueLabel s = false) :
    j = .str s := by
  have hother {t : String} (ht : isValueLabel t = true) : t ≠ s := by
    rintro rfl
    exact Bool.noConfusion (hs.symm.trans ht)
  cases j with
  | str t => exact congrArg str h
  | null => exact absurd h (hother (by decide))
  | bool b => cases b <;> exact absurd h (hother (by decide))
  | int n => exact absurd h (hother (isValueLabel_of_madeOf (madeOf_toString_int n)))
  | float x => exact absurd h (hother (isValueLabel_of_madeOf x.madeOf_text))
  | nan => exact absurd h (hother (by decide))
  | arr items =>
      exact absurd h (hother (isValueLabel_of_head (by simp [label, listing]) (Or.inl rfl)))
  | obj fields =>
      exact absurd h (hother (isValueLabel_of_head (by simp [label, listing]) (Or.inr rfl)))

theorem isStr_of_labelOrEmpty {j : Json} {s : String} (h : j.labelOrEmpty = s) (hempty : s ≠ "")
    (hs : isValueLabel s = false) : j.isStr s = true := by
  unfold labelOrEmpty at h
  split at h
  · rw [eq_str_of_label h hs]
    exact beq_self_eq_true s
  · exact absurd h.symm hempty

theorem labelOrEmpty_of_isStr {j : Json} {s : String} (h : j.isStr s = true) (hs : s ≠ "") :
    j.labelOrEmpty = s := by
  cases j with
  | str t =>
      have hgiven : (str s).isGiven = true := bne_iff_ne.mpr hs
      rw [eq_of_beq h, labelOrEmpty, if_pos hgiven, label]
  | null | bool _ | int _ | float _ | nan | arr _ | obj _ => exact nomatch h

end Json
end DesignToWeb
