import DesignToWeb.Binary64.Shortest
import DesignToWeb.Proofs.Text.MadeOf

/-!
# The characters of numerals

Whatever a number is, its text holds nothing but digits, a point, signs and the
letters of an exponent, of infinity and of NaN.
-/

namespace DesignToWeb

open Text (MadeOf)

/-- The characters of numerals, with the letters of `inf` and `nan`. -/
def isNumeralChar (c : Char) : Bool := c.isDigit || ['.', '+', '-', 'e', 'i', 'n', 'f', 'a'].contains c

theorem isNumeralChar_of_isDigit {c : Char} (h : c.isDigit = true) : isNumeralChar c = true := by
  simp [isNumeralChar, h]

theorem madeOf_toString_int (n : Int) : MadeOf isNumeralChar (toString n) :=
  MadeOf.toString_int (fun _ ↦ isNumeralChar_of_isDigit) rfl n

namespace Decimal

theorem isNumeralChar_of_mem_digits {n : Nat} {c : Char} (hc : c ∈ digits n) :
    isNumeralChar c = true :=
  isNumeralChar_of_isDigit (Nat.isDigit_of_mem_toDigits (by decide) (by decide) hc)

theorem isNumeralChar_of_mem_significant {d : Decimal} {c : Char} (hc : c ∈ d.significant.1) :
    isNumeralChar c = true := by
  have hreverse := (List.dropWhile_sublist (· = '0')).mem (List.mem_reverse.mp hc)
  exact isNumeralChar_of_mem_digits (List.mem_reverse.mp hreverse)

theorem isNumeralChar_of_mem_positional {ds : List Char} (h : ∀ c ∈ ds, isNumeralChar c = true)
    {point : Int} {c : Char} (hc : c ∈ positional ds point) : isNumeralChar c = true := by
  unfold positional at hc
  split at hc
  · simp only [List.mem_cons, List.mem_append, List.mem_replicate] at hc
    rcases hc with rfl | rfl | ⟨_, rfl⟩ | hc
    · rfl
    · rfl
    · rfl
    · exact h c hc
  · split at hc
    · simp only [List.mem_append, List.mem_replicate, List.mem_cons, List.not_mem_nil,
        or_false] at hc
      rcases hc with (hc | ⟨_, rfl⟩) | rfl | rfl
      · exact h c hc
      · rfl
      · rfl
      · rfl
    · rw [List.mem_append, List.mem_cons] at hc
      rcases hc with hc | rfl | hc
      · exact h c (List.mem_of_mem_take hc)
      · rfl
      · exact h c (List.mem_of_mem_drop hc)

theorem isNumeralChar_of_mem_scientific {ds : List Char} (h : ∀ c ∈ ds, isNumeralChar c = true)
    {point : Int} {c : Char} (hc : c ∈ scientific ds point) : isNumeralChar c = true := by
  unfold scientific at hc
  simp only [List.mem_append, List.mem_cons, List.not_mem_nil, or_false] at hc
  rcases hc with ((hc | hc) | rfl | rfl) | hc
  · exact h c (List.mem_of_mem_take hc)
  · split at hc
    · exact absurd hc List.not_mem_nil
    · rcases List.mem_cons.mp hc with rfl | hc
      · rfl
      · exact h c (List.mem_of_mem_drop hc)
  · rfl
  · split
    · rfl
    · rfl
  · split at hc
    · rcases List.mem_cons.mp hc with rfl | hc
      · rfl
      · exact isNumeralChar_of_mem_digits hc
    · exact isNumeralChar_of_mem_digits hc

theorem isNumeralChar_of_mem_text {d : Decimal} {c : Char} (hc : c ∈ d.text) :
    isNumeralChar c = true := by
  have hdigits : ∀ c ∈ d.significant.1, isNumeralChar c = true :=
    fun _ ↦ isNumeralChar_of_mem_significant
  unfold text at hc
  dsimp only at hc
  split at hc
  · exact isNumeralChar_of_mem_positional hdigits hc
  · exact isNumeralChar_of_mem_scientific hdigits hc

end Decimal

namespace Binary64

theorem madeOf_text (x : Binary64) : MadeOf isNumeralChar x.text := by
  cases x with
  | finite negative magnitude =>
      apply MadeOf.ofList
      intro c hc
      rcases List.mem_append.mp hc with hc | hc
      · split at hc
        · rw [List.mem_singleton.mp hc]
          rfl
        · exact absurd hc List.not_mem_nil
      · unfold magnitudeText at hc
        split at hc
        · simp only [List.mem_cons, List.not_mem_nil, or_false] at hc
          rcases hc with rfl | rfl | rfl
          · rfl
          · rfl
          · rfl
        · exact Decimal.isNumeralChar_of_mem_text hc
  | infinite negative =>
      cases negative with
      | false => decide
      | true => decide
  | nan => decide

end Binary64
end DesignToWeb
