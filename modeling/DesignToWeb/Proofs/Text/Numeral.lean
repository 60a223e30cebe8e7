import DesignToWeb.Proofs.Binary64.Rounding
import DesignToWeb.Proofs.Text.Trimming
import DesignToWeb.Text.Numeral

/-!
# Reading plain numerals

A plain numeral is written with ASCII digits, perhaps with a minus sign before them and a
point among them.  It has nothing that is trimmed or taken out, and it is read as the decimal of
its digits.
-/

namespace DesignToWeb.Text

open Binary64

/-! ## The value of digits -/

/-- What holds of the ten characters from zero to nine holds of every ASCII digit. -/
theorem forall_isDigit {p : Char → Prop} (h : ∀ n < 58, 48 ≤ n → p (Char.ofNat n)) {c : Char}
    (hc : c.isDigit = true) : p c := by
  rw [Char.isDigit, Bool.and_eq_true, decide_eq_true_eq, decide_eq_true_eq] at hc
  have hlow : 48 ≤ c.toNat := hc.1
  have hhigh : c.toNat < 58 := Nat.lt_succ_of_le hc.2
  rw [← Char.ofNat_toNat c]
  exact h c.toNat hhigh hlow

theorem digitValue?_of_isDigit {c : Char} (h : c.isDigit = true) :
    digitValue? c = some (c.toNat - '0'.toNat) :=
  forall_isDigit (p := fun c ↦ digitValue? c = some (c.toNat - '0'.toNat)) (by decide) h

theorem isDecimalDigit_of_isDigit {c : Char} (h : c.isDigit = true) : isDecimalDigit c = true := by
  rw [isDecimalDigit, digitValue?_of_isDigit h]
  rfl

variable {cs : List Char}

theorem digitsValue_eq (h : ∀ c ∈ cs, c.isDigit = true) :
    digitsValue cs = Nat.ofDigitChars 10 cs 0 := by
  have hfold (start : Nat) : cs.foldl (fun n c ↦ 10 * n + (digitValue? c).getD 0) start =
      Nat.ofDigitChars 10 cs start := by
    induction cs generalizing start with
    | nil => rfl
    | cons c cs ih =>
        rw [List.foldl_cons, Nat.ofDigitChars_cons, digitValue?_of_isDigit (h c List.mem_cons_self)]
        exact ih (fun c hc ↦ h c (List.mem_cons_of_mem _ hc)) _
  exact hfold 0

theorem digitsValue_toDigits (n : Nat) : digitsValue (Nat.toDigits 10 n) = n := by
  rw [digitsValue_eq fun _ ↦ Nat.isDigit_of_mem_toDigits (by decide) (by decide)]
  exact Nat.ofDigitChars_ten_toDigits

theorem toList_toString (i : Int) :
    (toString i).toList = (if i < 0 then ['-'] else []) ++ Nat.toDigits 10 i.natAbs := by
  cases i with
  | ofNat n =>
      have hpos : ¬ Int.ofNat n < 0 := Int.not_lt.mpr (Int.natCast_nonneg n)
      rw [if_neg hpos]
      exact Nat.toList_repr
  | negSucc n =>
      have htext : toString (Int.negSucc n) = "-" ++ toString (n + 1) := rfl
      rw [htext, String.toList_append, if_pos (Int.negSucc_lt_zero n)]
      exact congrArg (['-'] ++ ·) Nat.toList_repr

/-- A whole number is told by its text. -/
theorem toString_inj {i j : Int} : toString i = toString j ↔ i = j := by
  refine ⟨fun h ↦ ?_, congrArg toString⟩
  have hchars := congrArg String.toList h
  rw [toList_toString, toList_toString] at hchars
  have hminus (n : Nat) : '-' ∉ Nat.toDigits 10 n := fun hmem ↦
    Bool.noConfusion (Nat.isDigit_of_mem_toDigits (by decide) (by decide) hmem)
  have hdigits {m n : Nat} (heq : Nat.toDigits 10 m = Nat.toDigits 10 n) : m = n := by
    rw [← digitsValue_toDigits m, heq, digitsValue_toDigits]
  by_cases hi : i < 0 <;> by_cases hj : j < 0
  · rw [if_pos hi, if_pos hj] at hchars
    have habs := hdigits (List.append_cancel_left hchars)
    omega
  · rw [if_pos hi, if_neg hj] at hchars
    have hmem : '-' ∈ [] ++ Nat.toDigits 10 j.natAbs := hchars ▸ List.mem_cons_self
    exact absurd hmem (hminus j.natAbs)
  · rw [if_neg hi, if_pos hj] at hchars
    have hmem : '-' ∈ [] ++ Nat.toDigits 10 i.natAbs := hchars ▸ List.mem_cons_self
    exact absurd hmem (hminus i.natAbs)
  · rw [if_neg hi, if_neg hj] at hchars
    have habs := hdigits (List.append_cancel_left hchars)
    omega

theorem digitsValue_concat_zero (cs : List Char) :
    digitsValue (cs ++ ['0']) = digitsValue cs * 10 := by
  rw [digitsValue, List.foldl_append, Nat.mul_comm]
  rfl

theorem digitsValue_append_zeros (cs : List Char) (zeros : Nat) :
    digitsValue (cs ++ List.replicate zeros '0') = digitsValue cs * tenTo zeros := by
  induction zeros with
  | zero => rw [List.replicate_zero, List.append_nil, tenTo_zero, Nat.mul_one]
  | succ zeros ih =>
      rw [List.replicate_succ', ← List.append_assoc, digitsValue_concat_zero, ih, Nat.mul_assoc,
        tenTo_add]
      rfl

theorem digitsValue_zeros_append (zeros : Nat) (cs : List Char) :
    digitsValue (List.replicate zeros '0' ++ cs) = digitsValue cs := by
  induction zeros with
  | zero => rfl
  | succ zeros ih => exact ih

/-! ## Plain numerals -/

/-- A numeral of ASCII digits, in parts. -/
structure Numeral where
  negative : Bool
  whole : List Char
  fraction : List Char
  whole_digits : ∀ c ∈ whole, c.isDigit = true
  fraction_digits : ∀ c ∈ fraction, c.isDigit = true
  whole_ne_nil : whole ≠ []

namespace Numeral

variable (n : Numeral)

/-- The digits, with the point before the fraction if there is one. -/
def unsigned : List Char := n.whole ++ if n.fraction = [] then [] else '.' :: n.fraction

def chars : List Char := (if n.negative then ['-'] else []) ++ n.unsigned

/-- Whether there is no zero that the numeral can do without. -/
structure IsCanonical : Prop where
  leading : n.whole = ['0'] ∨ n.whole.head? ≠ some '0'
  trailing : n.fraction.getLast? ≠ some '0'

def value : Binary64 :=
  .ofDecimal n.negative (digitsValue (n.whole ++ n.fraction)) (-n.fraction.length)

theorem exists_unsigned_eq : ∃ c rest, c.isDigit = true ∧ n.unsigned = c :: rest := by
  obtain ⟨c, rest, heq⟩ := List.exists_cons_of_ne_nil n.whole_ne_nil
  refine ⟨c, rest ++ if n.fraction = [] then [] else '.' :: n.fraction, ?_, ?_⟩
  · exact n.whole_digits c (heq ▸ List.mem_cons_self)
  · rw [unsigned, heq]
    rfl

theorem plain_of_mem {c : Char} (hc : c ∈ n.chars) : c = '-' ∨ c = '.' ∨ c.isDigit = true := by
  rw [chars, unsigned, List.mem_append, List.mem_append] at hc
  rcases hc with hsign | hwhole | hfraction
  · split at hsign
    · exact Or.inl (List.mem_singleton.mp hsign)
    · exact absurd hsign List.not_mem_nil
  · exact Or.inr (Or.inr (n.whole_digits c hwhole))
  · split at hfraction
    · exact absurd hfraction List.not_mem_nil
    · rcases List.mem_cons.mp hfraction with hpoint | hmem
      · exact Or.inr (Or.inl hpoint)
      · exact Or.inr (Or.inr (n.fraction_digits c hmem))

theorem not_isBlank_of_mem {c : Char} (hc : c ∈ n.chars) : isNumeralBlank c = false := by
  rcases n.plain_of_mem hc with rfl | rfl | hdigit
  · decide
  · decide
  · exact forall_isDigit (p := fun c ↦ isNumeralBlank c = false) (by decide) hdigit

theorem ne_separator_of_mem {c : Char} (hc : c ∈ n.chars) : c ≠ '_' := by
  rintro rfl
  rcases n.plain_of_mem hc with h | h | h
  · exact absurd h (by decide)
  · exact absurd h (by decide)
  · exact absurd h (by decide)

theorem separatorsWellPlaced_of_ne {cs : List Char} (h : ∀ c ∈ cs, c ≠ '_') (afterDigit : Bool) :
    separatorsWellPlaced afterDigit cs = true := by
  induction cs generalizing afterDigit with
  | nil => rfl
  | cons c cs ih =>
      rw [separatorsWellPlaced]
      · exact ih (fun c hc ↦ h c (List.mem_cons_of_mem _ hc)) _
      · exact h c List.mem_cons_self

theorem numeralBody?_chars : numeralBody? (String.ofList n.chars) = some n.chars := by
  have htrim : IsTrimOf isNumeralBlank n.chars n.chars := {
    around := ⟨[], [], by simp, by simp, by simp⟩
    head := fun c hc ↦ n.not_isBlank_of_mem (List.mem_of_head? hc)
    last := fun c hc ↦ n.not_isBlank_of_mem (List.mem_of_getLast? hc) }
  have hplaced : separatorsWellPlaced false n.chars = true :=
    separatorsWellPlaced_of_ne (fun _ ↦ n.ne_separator_of_mem) false
  have hfilter : n.chars.filter (· ≠ '_') = n.chars :=
    List.filter_eq_self.mpr fun c hc ↦ decide_eq_true (n.ne_separator_of_mem hc)
  rw [numeralBody?, String.toList_ofList, htrim.trimWhile_eq, if_pos hplaced, hfilter]

theorem splitSign_chars : splitSign n.chars = (n.negative, n.unsigned) := by
  obtain ⟨c, rest, hdigit, heq⟩ := n.exists_unsigned_eq
  rw [chars, heq]
  cases n.negative with
  | true => rfl
  | false =>
      change splitSign (c :: rest) = (false, c :: rest)
      rw [splitSign]
      · intro rest' hcons
        rw [(List.cons.inj hcons).1] at hdigit
        exact absurd hdigit (by decide)
      · intro rest' hcons
        rw [(List.cons.inj hcons).1] at hdigit
        exact absurd hdigit (by decide)

theorem decimal?_unsigned (negative : Bool) :
    decimal? negative n.unsigned =
      some (.ofDecimal negative (digitsValue (n.whole ++ n.fraction)) (-n.fraction.length)) := by
  have hwhole : ∀ c ∈ n.whole, isDecimalDigit c = true :=
    fun c hc ↦ isDecimalDigit_of_isDigit (n.whole_digits c hc)
  have hfraction : ∀ c ∈ n.fraction, isDecimalDigit c = true :=
    fun c hc ↦ isDecimalDigit_of_isDigit (n.fraction_digits c hc)
  have hempty : n.whole.isEmpty = false := List.isEmpty_eq_false_iff.mpr n.whole_ne_nil
  unfold decimal? unsigned
  dsimp only
  rw [List.takeWhile_append_of_pos hwhole, List.dropWhile_append_of_pos hwhole]
  by_cases hnil : n.fraction = []
  · simp [hnil, hempty, exponent?]
  · have htake : n.fraction.takeWhile isDecimalDigit = n.fraction := by
      have happend : (n.fraction ++ []).takeWhile isDecimalDigit = _ :=
        List.takeWhile_append_of_pos hfraction
      rwa [List.append_nil, List.takeWhile_nil, List.append_nil] at happend
    have hpoint : isDecimalDigit '.' = false := by decide
    simp [hnil, hpoint, hempty, htake, dropWhile_all hfraction, exponent?]

theorem toLower_of_isDigit {c : Char} (h : c.isDigit = true) : c.toLower = c :=
  forall_isDigit (p := fun c ↦ c.toLower = c) (by decide) h

theorem ne_word {word : String} (hword : word.toList.head?.any Char.isDigit = false) :
    String.ofList (n.unsigned.map Char.toLower) ≠ word := by
  obtain ⟨c, rest, hdigit, heq⟩ := n.exists_unsigned_eq
  rintro rfl
  rw [String.toList_ofList, heq, List.map_cons, List.head?_cons, Option.any_some,
    toLower_of_isDigit hdigit, hdigit] at hword
  exact Bool.noConfusion hword

theorem number?_chars : number? (String.ofList n.chars) = some n.value := by
  unfold number?
  rw [numeralBody?_chars, Option.bind_eq_bind, Option.bind_some, splitSign_chars]
  dsimp only
  split
  · next hword => exact absurd hword (n.ne_word (by decide))
  · next hword => exact absurd hword (n.ne_word (by decide))
  · next hword => exact absurd hword (n.ne_word (by decide))
  · exact n.decimal?_unsigned n.negative

end Numeral
end DesignToWeb.Text
