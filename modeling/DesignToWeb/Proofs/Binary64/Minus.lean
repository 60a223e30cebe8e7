import DesignToWeb.Proofs.Binary64.Text

/-!
# Minus signs

The text of a number begins with a minus sign exactly if the number has the negative
sign.  Any other minus sign stands in an exponent.
-/

namespace DesignToWeb

/-- Whether a numeral, or a length, begins with a minus sign. -/
def isNegative (text : String) : Bool := text.toList.head? == some '-'

theorem isNegative_append {s : String} (h : s ≠ "") (t : String) :
    isNegative (s ++ t) = isNegative s := by
  have hne : s.toList ≠ [] := fun hnil ↦ h (String.toList_eq_nil_iff.mp hnil)
  obtain ⟨c, cs, hcs⟩ := List.exists_cons_of_ne_nil hne
  rw [isNegative, isNegative, String.toList_append, hcs]
  rfl

theorem isNegative_toString (n : Int) : isNegative (toString n) = decide (n < 0) := by
  cases n with
  | negSucc n =>
      have hminus : isNegative ("-" ++ toString (n + 1)) = true := isNegative_append (by decide) _
      exact hminus.trans (decide_eq_true (Int.negSucc_lt_zero n)).symm
  | ofNat n =>
      have hdigits : (toString (Int.ofNat n)).toList = Nat.toDigits 10 n := Nat.toList_repr
      refine .trans ?_ (decide_eq_false (Int.not_lt.mpr (Int.natCast_nonneg n))).symm
      rw [isNegative, hdigits, beq_eq_false_iff_ne]
      intro hhead
      have hdigit := Nat.isDigit_of_mem_toDigits (b := 10) (n := n) (by decide) (by decide)
        (List.mem_of_head? hhead)
      exact Bool.noConfusion hdigit

namespace Decimal

theorem ne_minus_of_mem_digits {n : Nat} {c : Char} (hc : c ∈ digits n) : c ≠ '-' := by
  rintro rfl
  exact Bool.noConfusion (Nat.isDigit_of_mem_toDigits (b := 10) (by decide) (by decide) hc)

theorem ne_minus_of_mem_significant {d : Decimal} {c : Char} (hc : c ∈ d.significant.1) :
    c ≠ '-' := by
  have hreverse := (List.dropWhile_sublist (· = '0')).mem (List.mem_reverse.mp hc)
  exact ne_minus_of_mem_digits (List.mem_reverse.mp hreverse)

theorem head?_positional {ds : List Char} (h : '-' ∉ ds) (point : Int) :
    (positional ds point).head? ≠ some '-' := by
  unfold positional
  split
  · exact nofun
  · intro hhead
    split at hhead
    · have hmem := List.mem_of_head? hhead
      simp only [List.mem_append, List.mem_replicate, List.mem_cons, List.not_mem_nil,
        or_false] at hmem
      rcases hmem with (hmem | ⟨_, hzero⟩) | hpoint | hzero
      · exact h hmem
      · exact absurd hzero (by decide)
      · exact absurd hpoint (by decide)
      · exact absurd hzero (by decide)
    · have hmem := List.mem_of_head? hhead
      rw [List.mem_append, List.mem_cons] at hmem
      rcases hmem with hmem | hpoint | hmem
      · exact h (List.mem_of_mem_take hmem)
      · exact absurd hpoint (by decide)
      · exact h (List.mem_of_mem_drop hmem)

/-- A minus sign may stand in the exponent only. -/
theorem head?_scientific {ds : List Char} (h : '-' ∉ ds) (point : Int) :
    (scientific ds point).head? ≠ some '-' := by
  cases ds with
  | nil => exact nofun
  | cons c ds =>
      rintro hhead
      exact h (Option.some.inj hhead ▸ List.mem_cons_self)

theorem head?_text (d : Decimal) : d.text.head? ≠ some '-' := by
  have hdigits : '-' ∉ d.significant.1 := fun h ↦ ne_minus_of_mem_significant h rfl
  unfold text
  dsimp only
  split
  · exact head?_positional hdigits _
  · exact head?_scientific hdigits _

end Decimal

namespace Binary64

theorem head?_magnitudeText (m : Magnitude) : (magnitudeText m).head? ≠ some '-' := by
  unfold magnitudeText
  split
  · exact nofun
  · exact Decimal.head?_text _

theorem isNegative_text (negative : Bool) (magnitude : Magnitude) :
    isNegative (finite negative magnitude).text = negative := by
  rw [isNegative, text, String.toList_ofList]
  cases negative with
  | true => rfl
  | false => exact beq_eq_false_iff_ne.mpr (head?_magnitudeText magnitude)

end Binary64

end DesignToWeb
