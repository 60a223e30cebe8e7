import DesignToWeb.Proofs.Binary64.Shortest
import DesignToWeb.Proofs.Text.Numeral

/-!
# Decimals in positional notation

A decimal with a fraction that is written without an exponent is a canonical numeral: the zeros
at the end of its digits are not written, and only a zero before the point begins with one.
-/

namespace DesignToWeb

namespace Decimal

open Text (Numeral digitsValue)

/-! ## Digits -/

theorem isDigit_of_mem_digits {n : Nat} {c : Char} (hc : c ∈ digits n) : c.isDigit = true :=
  Nat.isDigit_of_mem_toDigits (by decide) (by decide) hc

theorem digitChar_ne_zero : ∀ n < 10, n ≠ 0 → n.digitChar ≠ '0' := by decide

theorem head?_digits {n : Nat} (hn : n ≠ 0) : (digits n).head? ≠ some '0' := by
  induction n using Nat.strongRecOn with
  | ind n ih =>
      unfold digits at *
      rcases Nat.lt_or_ge n 10 with hlt | hge
      · rw [Nat.toDigits_of_lt_base hlt]
        rw [List.head?_cons, ne_eq, Option.some.injEq]
        exact digitChar_ne_zero n hlt hn
      · have hquotient := ih (n / 10) (Nat.div_lt_self (by omega) (by decide)) (by omega)
        have hne : Nat.toDigits 10 (n / 10) ≠ [] := Nat.toDigits_ne_nil
        obtain ⟨c, rest, heq⟩ := List.exists_cons_of_ne_nil hne
        rw [Nat.toDigits_of_base_le (by decide) hge, List.head?_append, heq]
        rw [heq] at hquotient
        exact hquotient

variable (d : Decimal)

theorem exists_eq_append_zeros (cs : List Char) : ∃ zeros,
    cs = (cs.reverse.dropWhile (· = '0')).reverse ++ List.replicate zeros '0' := by
  have hzeros : ∀ c ∈ cs.reverse.takeWhile (· = '0'), c = '0' :=
    fun c hc ↦ of_decide_eq_true (List.all_eq_true.mp List.all_takeWhile c hc)
  refine ⟨(cs.reverse.takeWhile (· = '0')).length, ?_⟩
  rw [← List.reverse_replicate, ← List.eq_replicate_of_mem hzeros, ← List.reverse_append,
    List.takeWhile_append_dropWhile, List.reverse_reverse]

/-- The digits that are written, and the zeros behind them. -/
theorem exists_zeros : ∃ zeros : Nat,
    digits d.coefficient = d.significant.1 ++ List.replicate zeros '0' ∧
      d.significant.2 = d.significant.1.length + (zeros + d.exponent) := by
  obtain ⟨zeros, heq⟩ := exists_eq_append_zeros (digits d.coefficient)
  refine ⟨zeros, heq, ?_⟩
  have hlength := congrArg List.length heq
  rw [List.length_append, List.length_replicate] at hlength
  simp only [significant] at hlength ⊢
  omega

theorem getLast?_significant : d.significant.1.getLast? ≠ some '0' := by
  intro hlast
  have hhead := List.head?_dropWhile_not (· = '0') (digits d.coefficient).reverse
  rw [significant, List.getLast?_reverse] at hlast
  rw [hlast] at hhead
  exact Bool.noConfusion hhead

variable {d}

theorem isDigit_of_mem_significant {c : Char} (hc : c ∈ d.significant.1) : c.isDigit = true := by
  obtain ⟨zeros, heq, _⟩ := d.exists_zeros
  exact isDigit_of_mem_digits (heq ▸ List.mem_append_left _ hc)

theorem significant_ne_nil (hcoefficient : d.coefficient ≠ 0) : d.significant.1 ≠ [] := by
  obtain ⟨zeros, heq, _⟩ := d.exists_zeros
  have hhead := head?_digits hcoefficient
  intro hnil
  rw [heq, hnil, List.nil_append] at hhead
  cases zeros with
  | zero =>
      rw [hnil] at heq
      exact Nat.toDigits_ne_nil heq
  | succ zeros => exact hhead rfl

theorem head?_significant (hcoefficient : d.coefficient ≠ 0) :
    d.significant.1.head? ≠ some '0' := by
  obtain ⟨zeros, heq, _⟩ := d.exists_zeros
  obtain ⟨c, rest, hcons⟩ := List.exists_cons_of_ne_nil (significant_ne_nil hcoefficient)
  have hhead := head?_digits hcoefficient
  rw [heq, hcons] at hhead
  rw [hcons]
  exact hhead

/-! ## Numerals -/

/-- Whether a numeral writes digits with the point at its place. -/
structure Writes (n : Numeral) (ds : List Char) (point : Int) : Prop where
  text : n.unsigned = positional ds point
  canonical : n.IsCanonical
  places : (n.fraction.length : Int) = ds.length - point
  value : digitsValue (n.whole ++ n.fraction) = digitsValue ds

section Writing

variable {ds : List Char} {point : Int} (negative : Bool) (hdigits : ∀ c ∈ ds, c.isDigit = true)
  (hlast : ds.getLast? ≠ some '0')

include hdigits hlast

theorem exists_writes_of_nonpos (hne : ds ≠ []) (hpoint : point ≤ 0) :
    ∃ n : Numeral, n.negative = negative ∧ Writes n ds point := by
  have hfraction : ∀ c ∈ List.replicate (-point).toNat '0' ++ ds, c.isDigit = true := by
    intro c hc
    rcases List.mem_append.mp hc with hzero | hc
    · rw [(List.mem_replicate.mp hzero).2]
      rfl
    · exact hdigits c hc
  refine ⟨⟨negative, ['0'], List.replicate (-point).toNat '0' ++ ds,
    List.forall_mem_singleton.mpr rfl, hfraction, nofun⟩, rfl, ?_, ⟨Or.inl rfl, ?_⟩, ?_, ?_⟩
  · have hnil : List.replicate (-point).toNat '0' ++ ds ≠ [] :=
      List.append_ne_nil_of_right_ne_nil _ hne
    rw [positional, if_pos hpoint, Numeral.unsigned, if_neg hnil]
    rfl
  · obtain ⟨c, hc⟩ := Option.isSome_iff_exists.mp (List.getLast?_isSome.mpr hne)
    rw [hc] at hlast
    rw [List.getLast?_append, hc]
    exact hlast
  · rw [List.length_append, List.length_replicate]
    omega
  · exact Text.digitsValue_zeros_append _ ds

theorem exists_writes_of_pos (hhead : ds.head? ≠ some '0') (hpoint : 0 < point)
    (hfraction : point < ds.length) :
    ∃ n : Numeral, n.negative = negative ∧ Writes n ds point := by
  refine ⟨⟨negative, ds.take point.toNat, ds.drop point.toNat, ?_, ?_, ?_⟩, rfl, ?_, ⟨?_, ?_⟩, ?_,
    ?_⟩
  · exact fun c hc ↦ hdigits c (List.mem_of_mem_take hc)
  · exact fun c hc ↦ hdigits c (List.mem_of_mem_drop hc)
  · apply List.ne_nil_of_length_pos
    rw [List.length_take]
    omega
  · have hnil : ds.drop point.toNat ≠ [] := by
      apply List.ne_nil_of_length_pos
      rw [List.length_drop]
      omega
    rw [positional, if_neg (by omega), if_neg (by omega), Numeral.unsigned, if_neg hnil]
  · right
    rw [List.head?_take, if_neg (by omega)]
    exact hhead
  · rw [List.getLast?_drop, if_neg (by omega)]
    exact hlast
  · rw [List.length_drop]
    omega
  · rw [List.take_append_drop]

end Writing

/-- A decimal with a fraction, written without an exponent, is a canonical numeral. -/
theorem exists_writes (negative : Bool) (hcoefficient : d.coefficient ≠ 0)
    (hpositional : isPositional d.significant.2 = true)
    (hfraction : d.significant.2 < d.significant.1.length) :
    ∃ n : Numeral, n.negative = negative ∧ n.unsigned = d.text ∧
      Writes n d.significant.1 d.significant.2 := by
  have hdigits : ∀ c ∈ d.significant.1, c.isDigit = true := fun _ ↦ isDigit_of_mem_significant
  have hwrites : ∃ n : Numeral, n.negative = negative ∧
      Writes n d.significant.1 d.significant.2 := by
    rcases Int.lt_or_le 0 d.significant.2 with hpos | hnonpos
    · exact exists_writes_of_pos negative hdigits d.getLast?_significant
        (head?_significant hcoefficient) hpos hfraction
    · exact exists_writes_of_nonpos negative hdigits d.getLast?_significant
        (significant_ne_nil hcoefficient) hnonpos
  obtain ⟨n, hnegative, hwrites⟩ := hwrites
  refine ⟨n, hnegative, ?_, hwrites⟩
  rw [hwrites.text, text]
  exact (if_pos hpositional).symm

end Decimal

namespace Magnitude

open Binary64
open Text (Numeral digitsValue)

variable {m : Magnitude} {thousandths : Nat}

theorem digitsValue_mul_tenTo {d : Decimal} {ds : List Char} {zeros : Nat}
    (h : Decimal.digits d.coefficient = ds ++ List.replicate zeros '0') :
    digitsValue ds * tenTo zeros = d.coefficient := by
  rw [← Text.digitsValue_append_zeros, ← h]
  exact Text.digitsValue_toDigits _

/-- Below `2 ^ 53` no decimal needs an exponent for its size. -/
theorem point_le {d : Decimal} (hlt : m.units < 1 <<< 1127)
    (h : decimalUnits d.coefficient d.exponent = m.units) (hneg : d.exponent ≤ 0) :
    (Decimal.digits d.coefficient).length + d.exponent ≤ 16 := by
  apply Int.not_lt.mp
  intro hlong
  have hlength : ¬ (Decimal.digits d.coefficient).length ≤ (16 - d.exponent).toNat := by omega
  rw [length_digits_le_iff (by omega), Nat.not_lt] at hlength
  have hmono := decimalUnits_mono hlength d.exponent
  rw [← Nat.one_mul (tenTo _), decimalUnits_zeros, h] at hmono
  have hexponent : ((16 - d.exponent).toNat : Int) + d.exponent = 16 := by omega
  have hlarge : 1 <<< 1127 ≤ decimalUnits 1 16 := by decide +kernel
  rw [hexponent] at hmono
  omega

/-- A number with a fraction that is nearest to some thousandths is written as a canonical numeral
with at most three decimals, which is read as the number. -/
theorem exists_numeral (negative : Bool) (hfraction : ¬ unitsInOne ∣ m.units)
    (h : decimalUnits thousandths (-3) = m.units) :
    ∃ n : Numeral, n.negative = negative ∧ n.unsigned = m.shortest.text ∧ n.IsCanonical ∧
      n.fraction ≠ [] ∧ n.fraction.length ≤ 3 ∧ n.value = finite negative m := by
  obtain ⟨hlow, hneg, hunits⟩ := shortest_spec hfraction h
  have hlt := (unitsInOne_dvd_or_lt m).resolve_left hfraction
  generalize m.shortest = d at *
  obtain ⟨zeros, hzeros, hpoint⟩ := d.exists_zeros
  have hlength := congrArg List.length hzeros
  rw [List.length_append, List.length_replicate] at hlength
  have hcoefficient := digits_ne_zero hfraction hunits
  -- the number in terms of the digits that are written
  have hwritten : decimalUnits (digitsValue d.significant.1) (zeros + d.exponent) = m.units := by
    rw [← decimalUnits_zeros, digitsValue_mul_tenTo hzeros, hunits]
  have hplaces := exponent_neg hfraction hwritten
  have hpositional : Decimal.isPositional d.significant.2 = true := by
    have hle := point_le hlt hunits (by omega)
    have hdigits : 0 < (Decimal.digits d.coefficient).length := Nat.length_toDigits_pos
    rw [Decimal.isPositional, Bool.and_eq_true, decide_eq_true_eq, decide_eq_true_eq]
    omega
  obtain ⟨n, hnegative, htext, hwrites⟩ :=
    Decimal.exists_writes negative hcoefficient hpositional (by omega)
  have hdecimals := hwrites.places
  refine ⟨n, hnegative, htext, hwrites.canonical, ?_, by omega, ?_⟩
  · intro hnil
    rw [hnil, List.length_nil] at hdecimals
    omega
  · have hexponent : -(n.fraction.length : Int) = zeros + d.exponent := by omega
    rw [Numeral.value, hnegative, hwrites.value, hexponent]
    exact (ofDecimal_eq_finite_iff (by omega) (by omega)).mpr hwritten

end Magnitude
end DesignToWeb
