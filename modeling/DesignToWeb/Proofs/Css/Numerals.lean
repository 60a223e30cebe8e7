import DesignToWeb.Css.Declaration
import DesignToWeb.Proofs.Binary64.Minus
import DesignToWeb.Proofs.Binary64.Positional
import Mathlib.Computability.RegularExpressions

/-!
# The form of numbers in a stylesheet

A finite number is written without an exponent, with at most three decimals and without a zero
that could be left out, and zero has no sign.  The text is read as the number rounded to three
decimals.
-/

namespace DesignToWeb.Css

open Binary64
open Text (Numeral)

/-! ## The form -/

section Form

open RegularExpression

def oneOf (cs : List Char) : RegularExpression Char := cs.foldr (fun c rest ↦ char c + rest) 0

def atMostOnce (form : RegularExpression Char) : RegularExpression Char := 1 + form

/-- The digits that a whole number may begin with. -/
def nonzeroDigit : RegularExpression Char := oneOf ['1', '2', '3', '4', '5', '6', '7', '8', '9']

def anyDigit : RegularExpression Char := char '0' + nonzeroDigit

/-- The form `-?(0|[1-9][0-9]*)(\.[0-9]{0,2}[1-9])?`. -/
def numeralForm : RegularExpression Char :=
  atMostOnce (char '-') * (char '0' + nonzeroDigit * anyDigit.star) *
    atMostOnce (char '.' * (atMostOnce anyDigit * atMostOnce anyDigit * nonzeroDigit))

variable {form form' : RegularExpression Char} {cs cs' : List Char} {c : Char}

theorem mem_oneOf (hc : c ∈ cs) : [c] ∈ (oneOf cs).matches' := by
  induction cs with
  | nil => exact absurd hc List.not_mem_nil
  | cons d cs ih =>
      rcases List.mem_cons.mp hc with rfl | hc
      · exact Or.inl rfl
      · exact Or.inr (ih hc)

theorem nil_mem_atMostOnce (form : RegularExpression Char) : [] ∈ (atMostOnce form).matches' :=
  Or.inl rfl

theorem mem_atMostOnce (h : cs ∈ form.matches') : cs ∈ (atMostOnce form).matches' := Or.inr h

theorem append_mem_mul (h : cs ∈ form.matches') (h' : cs' ∈ form'.matches') :
    cs ++ cs' ∈ (form * form').matches' := Language.append_mem_mul h h'

theorem mem_nonzeroDigit (hc : c.isDigit = true) (hzero : c ≠ '0') :
    [c] ∈ nonzeroDigit.matches' :=
  mem_oneOf (Text.forall_isDigit
    (p := fun c ↦ c ≠ '0' → c ∈ ['1', '2', '3', '4', '5', '6', '7', '8', '9']) (by decide) hc hzero)

theorem mem_anyDigit (hc : c.isDigit = true) : [c] ∈ anyDigit.matches' := by
  by_cases hzero : c = '0'
  · exact Or.inl (hzero ▸ rfl)
  · exact Or.inr (mem_nonzeroDigit hc hzero)

theorem mem_star_anyDigit (h : ∀ c ∈ cs, c.isDigit = true) : cs ∈ anyDigit.star.matches' := by
  apply Language.mem_kstar.mpr
  refine ⟨cs.map ([·]), ?_, fun piece hpiece ↦ ?_⟩
  · rw [← List.flatMap_def]
    exact (List.flatMap_singleton' cs).symm
  · obtain ⟨c, hc, rfl⟩ := List.mem_map.mp hpiece
    exact mem_anyDigit (h c hc)

theorem mem_fraction (hdigits : ∀ c ∈ cs, c.isDigit = true) (hne : cs ≠ [])
    (hlast : cs.getLast? ≠ some '0') (hlength : cs.length ≤ 3) :
    cs ∈ (atMostOnce anyDigit * atMostOnce anyDigit * nonzeroDigit).matches' := by
  obtain ⟨front, last, rfl⟩ := (List.eq_nil_or_concat' cs).resolve_left hne
  rw [List.forall_mem_append, List.forall_mem_singleton] at hdigits
  rw [List.getLast?_concat, ne_eq, Option.some.injEq] at hlast
  rw [List.length_append, List.length_singleton] at hlength
  refine append_mem_mul ?_ (mem_nonzeroDigit hdigits.2 hlast)
  match front, hdigits.1, hlength with
  | [], _, _ => exact append_mem_mul (nil_mem_atMostOnce _) (nil_mem_atMostOnce _)
  | [c], hfront, _ =>
      exact append_mem_mul (mem_atMostOnce (mem_anyDigit (hfront c (by simp))))
        (nil_mem_atMostOnce _)
  | [c, d], hfront, _ =>
      exact append_mem_mul (mem_atMostOnce (mem_anyDigit (hfront c (by simp))))
        (mem_atMostOnce (mem_anyDigit (hfront d (by simp))))

/-- A canonical numeral with at most three decimals has the form. -/
theorem mem_numeralForm {n : Numeral} (h : n.IsCanonical) (hlength : n.fraction.length ≤ 3) :
    n.chars ∈ numeralForm.matches' := by
  have hsign : (if n.negative then ['-'] else []) ∈ (atMostOnce (char '-')).matches' := by
    split
    · exact mem_atMostOnce rfl
    · exact nil_mem_atMostOnce _
  have hwhole : n.whole ∈ (char '0' + nonzeroDigit * anyDigit.star).matches' := by
    rcases h.leading with hzero | hleading
    · exact Or.inl hzero
    · obtain ⟨c, rest, heq⟩ := List.exists_cons_of_ne_nil n.whole_ne_nil
      have hdigits := n.whole_digits
      rw [heq, List.forall_mem_cons] at hdigits
      rw [heq, List.head?_cons, ne_eq, Option.some.injEq] at hleading
      rw [heq]
      exact Or.inr (append_mem_mul (mem_nonzeroDigit hdigits.1 hleading)
        (mem_star_anyDigit hdigits.2))
  have hfraction : (if n.fraction = [] then [] else '.' :: n.fraction) ∈
      (atMostOnce
        (char '.' * (atMostOnce anyDigit * atMostOnce anyDigit * nonzeroDigit))).matches' := by
    split
    · exact nil_mem_atMostOnce _
    · next hne =>
        have hpoint : ['.'] ∈ (char '.').matches' := rfl
        apply mem_atMostOnce
        exact append_mem_mul hpoint (mem_fraction n.fraction_digits hne h.trailing hlength)
  rw [Numeral.chars, Numeral.unsigned, ← List.append_assoc]
  exact append_mem_mul (append_mem_mul hsign hwhole) hfraction

example : numeralForm.rmatch "-12.05".toList = true := by decide +kernel

example : (["01", "1.", ".5", "1.50", "1.2345", "1e5"].any fun text ↦
    numeralForm.rmatch text.toList) = false := by decide +kernel

end Form

/-! ## Whole numbers -/

theorem leading_toDigits (n : Nat) :
    Nat.toDigits 10 n = ['0'] ∨ (Nat.toDigits 10 n).head? ≠ some '0' := by
  rcases Nat.eq_zero_or_pos n with rfl | hpos
  · exact Or.inl rfl
  · exact Or.inr (Decimal.head?_digits (Nat.ne_of_gt hpos))

def wholeNumeral (i : Int) : Numeral where
  negative := i < 0
  whole := Nat.toDigits 10 i.natAbs
  fraction := []
  whole_digits _ hc := Nat.isDigit_of_mem_toDigits (by decide) (by decide) hc
  fraction_digits _ hc := absurd hc List.not_mem_nil
  whole_ne_nil := Nat.toDigits_ne_nil

theorem toList_toString_eq_chars (i : Int) : (toString i).toList = (wholeNumeral i).chars := by
  rw [Text.toList_toString]
  simp [Numeral.chars, Numeral.unsigned, wholeNumeral]

theorem value_wholeNumeral (i : Int) : (wholeNumeral i).value = ofInt i := by
  have hdecimal : ofDecimal (i < 0) i.natAbs 0 = _ := ofDecimal_eq (by decide) (by decide)
  have hdigits : Text.digitsValue (Nat.toDigits 10 i.natAbs ++ []) = i.natAbs := by
    rw [List.append_nil, Text.digitsValue_toDigits]
  change ofDecimal (i < 0) (Text.digitsValue (Nat.toDigits 10 i.natAbs ++ [])) 0 = _
  rw [hdigits, hdecimal, Int.neg_zero, Int.toNat_zero, tenTo_zero, Nat.mul_one]
  rfl

theorem sameNumber_ofInt {x : Binary64} {i : Int} (h : IsInt x i) :
    (ofInt i).sameNumber x = true := by
  obtain ⟨negative, magnitude, rfl, hunits⟩ := h
  have hones := units_of_signedUnits hunits
  rw [ofInt, ofRatio, ← hones, ofUnits_of_representable _ magnitude.representable]
  change (signedUnits (i < 0) magnitude == signedUnits negative magnitude) = true
  rw [beq_iff_eq, hunits, signedUnits_of_ones hones]
  congr 1
  split
  · next hneg =>
      have hneg := of_decide_eq_true hneg
      omega
  · next hpos =>
      have hpos : ¬ i < 0 := fun hneg ↦ hpos (decide_eq_true hneg)
      omega

theorem toString_ne_negativeZero (i : Int) : toString i ≠ "-0" := by
  intro hzero
  have hchars := Text.toList_toString i
  have hsign := isNegative_toString i
  rw [hzero] at hchars hsign
  have hneg : i < 0 := of_decide_eq_true hsign.symm
  rw [if_pos hneg] at hchars
  have hdigits : ['0'] = Nat.toDigits 10 i.natAbs := (List.cons.inj hchars).2
  have hvalue := Text.digitsValue_toDigits i.natAbs
  rw [← hdigits] at hvalue
  have hdigit : Text.digitsValue ['0'] = 0 := by decide
  omega

/-! ## Texts of numbers -/

/-- Whether a text is a numeral in its form for a number, and not a negative zero. -/
def IsNumeralOf (text : String) (x : Binary64) : Prop :=
  text.toList ∈ numeralForm.matches' ∧ text ≠ "-0" ∧
    ∃ y, Text.number? text = some y ∧ y.sameNumber x = true

theorem isNumeralOf_chars {n : Numeral} {text : String} {x : Binary64}
    (htext : text.toList = n.chars) (hcanonical : n.IsCanonical) (hlength : n.fraction.length ≤ 3)
    (hzero : text ≠ "-0") (hvalue : n.value.sameNumber x = true) : IsNumeralOf text x := by
  refine ⟨?_, hzero, n.value, ?_, hvalue⟩
  · rw [htext]
    exact mem_numeralForm hcanonical hlength
  · rw [← String.ofList_toList (s := text), htext]
    exact n.number?_chars

theorem isNumeralOf_toString {x : Binary64} {i : Int} (h : IsInt x i) :
    IsNumeralOf (toString i) x := by
  apply isNumeralOf_chars (toList_toString_eq_chars i) ⟨leading_toDigits _, nofun⟩ (Nat.zero_le 3)
    (toString_ne_negativeZero i)
  rw [value_wholeNumeral]
  exact sameNumber_ofInt h

theorem isNumeralOf_text {negative : Bool} {magnitude : Magnitude} {thousandths : Nat}
    (hfraction : ¬ unitsInOne ∣ magnitude.units)
    (h : decimalUnits thousandths (-3) = magnitude.units) :
    IsNumeralOf (finite negative magnitude).text (finite negative magnitude) := by
  obtain ⟨n, hnegative, hunsigned, hcanonical, hne, hlength, hvalue⟩ :=
    magnitude.exists_numeral negative hfraction h
  have hunits : magnitude.units ≠ 0 := fun hzero ↦ hfraction (hzero ▸ Nat.dvd_zero _)
  have htext : (finite negative magnitude).text.toList = n.chars := by
    rw [text, String.toList_ofList, magnitudeText, if_neg hunits, Numeral.chars, hnegative,
      hunsigned]
  apply isNumeralOf_chars htext hcanonical hlength
  · intro hzero
    have hpoint : '.' ∈ n.chars := by
      simp [Numeral.chars, Numeral.unsigned, hne]
    rw [← htext, hzero] at hpoint
    exact absurd hpoint (by decide)
  · rw [hvalue]
    exact beq_self_eq_true _

/-- A rounded number is the one nearest to some thousandths. -/
theorem exists_thousandths {x : Binary64} (hx : x.isFinite = true) :
    ∃ negative magnitude thousandths, x.roundPlaces 3 = finite negative magnitude ∧
      decimalUnits thousandths (-3) = magnitude.units := by
  cases x with
  | infinite _ | nan => exact Bool.noConfusion hx
  | finite negative magnitude =>
      obtain ⟨rounded, hrounded⟩ := exists_of_isFinite_ofUnits (isFinite_roundPlaces 3 hx)
      refine ⟨negative, rounded, roundHalfEven (magnitude.units * tenTo 3) unitsInOne, hrounded, ?_⟩
      have hdecimal : ofDecimal negative (roundHalfEven (magnitude.units * tenTo 3) unitsInOne) (-3) =
          finite negative rounded := by
        rw [ofDecimal_eq (by decide) (by decide), ← hrounded, Int.toNat_of_nonpos (by decide),
          tenTo_zero, Nat.mul_one]
        rfl
      exact (ofDecimal_eq_finite_iff (by decide) (by decide)).mp hdecimal

theorem number_eq {x : Binary64} {negative : Bool} {magnitude : Magnitude}
    (h : x.roundPlaces 3 = finite negative magnitude) :
    number x = .ok (match (finite negative magnitude).whole? with
      | some i => toString i
      | none => (finite negative magnitude).text) := by
  have hwhole : number x = .ok (if (finite negative magnitude).isWhole then
      toString (if negative then -((magnitude.units / unitsInOne : Nat) : Int)
        else (magnitude.units / unitsInOne : Nat))
      else (finite negative magnitude).text) := by
    rw [number, h]
    rfl
  rw [hwhole, whole?]
  split
  · rfl
  · rfl

/-- A finite number is written in the form of a numeral with at most three decimals, and the
text is read as the number rounded to three decimals. -/
theorem number_reads_back {x : Binary64} (hx : x.isFinite = true) :
    ∃ text, number x = .ok text ∧ text.toList ∈ numeralForm.matches' ∧ text ≠ "-0" ∧
      ∃ y, Text.number? text = some y ∧ y.sameNumber (x.roundPlaces 3) = true := by
  obtain ⟨negative, magnitude, thousandths, hrounded, hunits⟩ := exists_thousandths hx
  rw [hrounded]
  refine ⟨_, number_eq hrounded, ?_⟩
  cases hwhole : (finite negative magnitude).whole? with
  | some i => exact isNumeralOf_toString (isInt_iff.mpr hwhole)
  | none =>
      apply isNumeralOf_text _ hunits
      intro hdvd
      obtain ⟨ones, hones⟩ := hdvd
      rw [whole?_of_ones (hones.trans (Nat.mul_comm _ _))] at hwhole
      exact nomatch hwhole

/-- A number below zero that is rounded to zero. -/
theorem number_reads_back_small :
    (ofDecimal true 4 (-4)).isFinite = true ∧
    ∃ text, number (ofDecimal true 4 (-4)) = .ok text ∧ text.toList ∈ numeralForm.matches' ∧
      text ≠ "-0" ∧ ∃ y, Text.number? text = some y ∧
        y.sameNumber ((ofDecimal true 4 (-4)).roundPlaces 3) = true := by
  have hfinite : (ofDecimal true 4 (-4)).isFinite = true := by decide +kernel
  exact ⟨hfinite, number_reads_back hfinite⟩

end DesignToWeb.Css
