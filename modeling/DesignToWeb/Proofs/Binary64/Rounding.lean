import DesignToWeb.Binary64.Basic

/-!
# Rounding within bounds

Rounding keeps the order, so what is at most a number that can be represented is
not rounded beyond it.  From this come bounds for the operations: with operands
below some power of two the result is finite.  A finite number that is rounded to
some decimals stays finite, however large it is; and sums and products of finite
numbers may be infinite, but are never NaN.
-/

namespace DesignToWeb

/-! ## Whole numbers -/

theorem roundHalfEven_mul {den : Nat} (hden : 0 < den) (n : Nat) :
    roundHalfEven (n * den) den = n := by
  have hmod : n * den % den = 0 := Nat.mul_mod_left n den
  have hdiv : n * den / den = n := Nat.mul_div_cancel n hden
  unfold roundHalfEven
  rw [hmod, hdiv, if_neg (by omega)]

theorem roundHalfEven_le_of_le {num den bound : Nat} (hden : 0 < den) (h : num ≤ bound * den) :
    roundHalfEven num den ≤ bound := by
  rcases Nat.eq_or_lt_of_le h with rfl | hlt
  · exact Nat.le_of_eq (roundHalfEven_mul hden bound)
  · have hquotient : num / den < bound := (Nat.div_lt_iff_lt_mul hden).mpr hlt
    exact Nat.le_trans (roundHalfEven_le num den) hquotient

theorem roundHalfEven_mul_le (num den : Nat) : roundHalfEven num den * den ≤ num + den := by
  refine Nat.le_trans (Nat.mul_le_mul_right den (roundHalfEven_le num den)) ?_
  rw [Nat.add_mul, Nat.one_mul]
  exact Nat.add_le_add_right (Nat.div_mul_le_self num den) den

theorem tenTo_zero : tenTo 0 = 1 := rfl

theorem tenTo_pos (places : Nat) : 0 < tenTo places := Nat.pow_pos (by decide)

theorem tenTo_add (j k : Nat) : tenTo (j + k) = tenTo j * tenTo k := Nat.pow_add 10 j k

theorem shiftLeft_eq_mul (n k : Nat) : n <<< k = n * 1 <<< k := by
  rw [Nat.shiftLeft_eq, Nat.shiftLeft_eq 1, Nat.one_mul]

theorem one_shiftLeft_le {j k : Nat} (h : j ≤ k) : 1 <<< j ≤ 1 <<< k := by
  rw [Nat.shiftLeft_eq, Nat.shiftLeft_eq]
  exact Nat.mul_le_mul_left 1 (Nat.pow_le_pow_right (by decide) h)

theorem one_shiftLeft_lt {j k : Nat} (h : j < k) : 1 <<< j < 1 <<< k := by
  rw [Nat.shiftLeft_eq, Nat.shiftLeft_eq, Nat.one_mul, Nat.one_mul]
  exact Nat.pow_lt_pow_right (by decide) h

theorem one_shiftLeft_mul (j k : Nat) : 1 <<< j * 1 <<< k = 1 <<< (j + k) := by
  rw [Nat.shiftLeft_add, shiftLeft_eq_mul (1 <<< j)]

theorem shiftLeft_lt {n j : Nat} (h : n < 1 <<< j) (k : Nat) : n <<< k < 1 <<< (j + k) := by
  rw [shiftLeft_eq_mul, ← one_shiftLeft_mul]
  exact Nat.mul_lt_mul_of_pos_right h (one_shiftLeft_pos k)

theorem representable_one_shiftLeft {k : Nat} (hk : k < 2098) : Representable (1 <<< k) :=
  ⟨one_shiftLeft_lt hk, 1, k, by decide, rfl⟩

namespace Binary64

theorem excess_le {quotient significand shift : Nat} (hsignificand : significand < 1 <<< 53)
    (h : quotient ≤ significand <<< shift) : excess quotient ≤ shift := by
  by_cases hzero : quotient = 0
  · rw [hzero]
    exact Nat.zero_le shift
  · have hpower : significand <<< shift < 2 ^ (53 + shift) := by
      rw [Nat.shiftLeft_eq, Nat.pow_add]
      exact Nat.mul_lt_mul_of_pos_right hsignificand (Nat.two_pow_pos shift)
    have hlog : quotient.log2 < 53 + shift := (Nat.log2_lt hzero).mpr (Nat.lt_of_le_of_lt h hpower)
    unfold excess
    omega

/-- What is at most a number that can be represented is not rounded beyond it. -/
theorem ofUnits_le {num den bound : Nat} (negative : Bool) (hden : 0 < den)
    (hbound : Representable bound) (h : num ≤ bound * den) :
    ∃ magnitude, ofUnits negative num den = finite negative magnitude ∧
      magnitude.units ≤ bound := by
  obtain ⟨hlimit, significand, shift, hsignificand, rfl⟩ := hbound
  have hquotient : num / den ≤ significand <<< shift :=
    Nat.div_le_of_le_mul (by rwa [Nat.mul_comm] at h)
  obtain ⟨rest, hrest⟩ := Nat.exists_eq_add_of_le' (excess_le hsignificand hquotient)
  -- the bound is a whole number of units in the last place of the result
  have hlast : num ≤ significand <<< rest * den <<< excess (num / den) := by
    rw [hrest, Nat.shiftLeft_add] at h
    rwa [shiftLeft_eq_mul den, Nat.mul_comm den, ← Nat.mul_assoc, ← shiftLeft_eq_mul]
  have hrounded : roundHalfEven num (den <<< excess (num / den)) <<< excess (num / den) ≤
      significand <<< shift := by
    have hpos : 0 < den <<< excess (num / den) := by
      rw [shiftLeft_eq_mul]
      exact Nat.mul_pos hden (one_shiftLeft_pos _)
    have hle := roundHalfEven_le_of_le hpos hlast
    rw [hrest, Nat.shiftLeft_add, shiftLeft_eq_mul, shiftLeft_eq_mul (significand <<< rest)]
    exact Nat.mul_le_mul_right _ hle
  have hfinite := Nat.lt_of_le_of_lt hrounded hlimit
  exact ⟨⟨_, representable_of_le (roundHalfEven_excess_le num den) hfinite⟩, dif_pos hfinite,
    hrounded⟩

/-! ## Bounds -/

/-- Whether a number is finite and has at most `2 ^ k` units. -/
inductive Within (k : Nat) : Binary64 → Prop
  | finite {negative : Bool} {magnitude : Magnitude} (h : magnitude.units ≤ 1 <<< k) :
      Within k (.finite negative magnitude)

instance (k : Nat) : DecidablePred (Within k)
  | .finite _ magnitude =>
    decidable_of_iff (magnitude.units ≤ 1 <<< k) ⟨.finite, fun | .finite h => h⟩
  | .infinite _ | .nan => isFalse nofun

variable {x y : Binary64} {j k l : Nat}

theorem Within.isFinite (h : Within k x) : x.isFinite = true := by
  cases h
  rfl

theorem Within.mono (h : Within j x) (hjk : j ≤ k) : Within k x := by
  obtain ⟨hle⟩ := h
  exact .finite (Nat.le_trans hle (one_shiftLeft_le hjk))

theorem within_ofUnits {num den : Nat} (negative : Bool) (hden : 0 < den) (hk : k < 2098)
    (h : num ≤ 1 <<< k * den) : Within k (ofUnits negative num den) := by
  obtain ⟨magnitude, heq, hle⟩ := ofUnits_le negative hden (representable_one_shiftLeft hk) h
  rw [heq]
  exact .finite hle

theorem within_ofRatio {num den : Nat} (negative : Bool) (hden : 0 < den) (hk : k < 1024)
    (h : num ≤ 1 <<< k * den) : Within (k + 1074) (ofRatio negative num den) := by
  refine within_ofUnits negative hden (by omega) ?_
  rw [← one_shiftLeft_mul, Nat.mul_right_comm]
  exact Nat.mul_le_mul_right unitsInOne h

theorem within_ofNat {n : Nat} (hk : k < 1024) (h : n ≤ 1 <<< k) : Within (k + 1074) (ofNat n) :=
  within_ofRatio false Nat.one_pos hk (by rwa [Nat.mul_one])

theorem Within.neg (h : Within k x) : Within k (-x) := by
  obtain ⟨hle⟩ := h
  exact .finite hle

theorem natAbs_signedUnits (negative : Bool) (magnitude : Magnitude) :
    (signedUnits negative magnitude).natAbs = magnitude.units := by
  unfold signedUnits
  split
  · rw [Int.natAbs_neg, Int.natAbs_natCast]
  · exact Int.natAbs_natCast _

theorem Within.add (hx : Within k x) (hy : Within k y) (hk : k < 2097) :
    Within (k + 1) (x + y) := by
  obtain @⟨s, a, ha⟩ := hx
  obtain @⟨t, b, hb⟩ := hy
  have htotal : (signedUnits s a + signedUnits t b).natAbs ≤ 1 <<< (k + 1) * 1 := by
    refine Nat.le_trans (Int.natAbs_add_le _ _) ?_
    rw [natAbs_signedUnits, natAbs_signedUnits, Nat.shiftLeft_succ]
    omega
  change Within (k + 1) (Binary64.add (.finite s a) (.finite t b))
  unfold Binary64.add
  dsimp only
  split
  · exact within_ofUnits _ Nat.one_pos (by omega) (Nat.zero_le _)
  · exact within_ofUnits _ Nat.one_pos (by omega) htotal

theorem Within.sub (hx : Within k x) (hy : Within k y) (hk : k < 2097) :
    Within (k + 1) (x - y) := hx.add hy.neg hk

theorem finite_mul_finite (s t : Bool) (a b : Magnitude) :
    finite s a * finite t b = ofUnits (s != t) (a.units * b.units) unitsInOne := by
  change mul (finite s a) (finite t b) = _
  rw [mul]

theorem Within.mul (hx : Within j x) (hy : Within k y) (hjk : j + k = l + 1074) (hl : l < 2098) :
    Within l (x * y) := by
  obtain @⟨s, a, ha⟩ := hx
  obtain @⟨t, b, hb⟩ := hy
  rw [finite_mul_finite]
  refine within_ofUnits (s != t) unitsInOne_pos hl (Nat.le_trans (Nat.mul_le_mul ha hb) ?_)
  rw [one_shiftLeft_mul, hjk, ← one_shiftLeft_mul]
  exact Nat.le_refl _

/-- A remainder is bounded by the divisor, whatever it is a remainder of. -/
theorem within_modNat {divisor : Nat} (hpos : 0 < divisor) (hk : k < 1023)
    (hdivisor : divisor ≤ 1 <<< k) (hx : x.isFinite = true) :
    Within (k + 1075) (x.modNat divisor) := by
  cases x with
  | infinite _ | nan => exact Bool.noConfusion hx
  | finite s a =>
      have hrest : Within (k + 1074) (ofUnits s (a.units % (divisor * unitsInOne)) 1) := by
        refine within_ofUnits s Nat.one_pos (by omega) ?_
        have hlt := Nat.mod_lt a.units (Nat.mul_pos hpos unitsInOne_pos)
        rw [Nat.mul_one, ← one_shiftLeft_mul]
        exact Nat.le_trans (Nat.le_of_lt hlt) (Nat.mul_le_mul_right unitsInOne hdivisor)
      unfold modNat
      dsimp only
      split
      · exact (within_ofNat (Nat.lt_succ_of_lt hk) (Nat.zero_le _)).mono (by omega)
      · split
        · exact hrest.add (within_ofNat (by omega) hdivisor) (by omega)
        · exact hrest.mono (by omega)

/-! ## Numbers from zero to one -/

theorem within_zero : Within 0 (0 : Binary64) := by decide

theorem within_one : Within 1074 (1 : Binary64) := within_ofNat (k := 0) (by decide) (by decide)

theorem position_zero : position 0 = some 0 := rfl

theorem exists_position_lt (h : lt x y = true) :
    ∃ a b, x.position = some a ∧ y.position = some b ∧ a < b := by
  unfold lt at h
  split at h
  · exact ⟨_, _, ‹_›, ‹_›, of_decide_eq_true h⟩
  · exact Bool.noConfusion h

/-- What lies between zero and one has at most the units of one. -/
theorem within_of_lt (hpos : lt 0 x = true) (hlt : lt x 1 = true) : Within 1074 x := by
  have hone : position 1 = some (unitsInOne : Int) := by decide +kernel
  obtain ⟨_, units, hzero', hunits, hlower⟩ := exists_position_lt hpos
  obtain ⟨_, _, hunits', hone', hupper⟩ := exists_position_lt hlt
  obtain rfl := Option.some.inj (position_zero.symm.trans hzero')
  obtain rfl := Option.some.inj (hone.symm.trans hone')
  obtain rfl := Option.some.inj (hunits.symm.trans hunits')
  cases x with
  | nan => exact nomatch hunits
  | infinite negative =>
      have hlimit : unitsInOne < unitsLimit := one_shiftLeft_lt (by decide)
      obtain rfl := Option.some.inj hunits
      cases negative with
      | false => exact absurd (Int.ofNat_lt.mp hupper) (Nat.lt_asymm hlimit)
      | true => exact absurd (Int.lt_neg_of_lt_neg hlower) (by omega)
  | finite negative magnitude =>
      refine .finite ?_
      rw [← natAbs_signedUnits negative magnitude, Option.some.inj hunits]
      change units.natAbs ≤ unitsInOne
      omega

theorem within_clampUnit (x : Binary64) : Within 1074 x.clampUnit := by
  unfold clampUnit
  dsimp only
  by_cases hlt : lt x 1 = true
  · rw [if_pos hlt]
    split
    · exact within_of_lt ‹_› hlt
    · exact within_zero.mono (by decide)
  · rw [if_neg hlt]
    split
    · exact within_one
    · exact within_zero.mono (by decide)

/-! ## Rounding to decimals -/

/-- Beyond the whole numbers with 53 bits there are only whole numbers. -/
theorem unitsInOne_dvd_or_lt (magnitude : Magnitude) :
    unitsInOne ∣ magnitude.units ∨ magnitude.units < 1 <<< 1127 := by
  obtain ⟨_, significand, shift, hsignificand, heq⟩ := magnitude.representable
  rw [heq]
  rcases Nat.lt_or_ge shift 1074 with hshift | hshift
  · have hlt := shiftLeft_lt hsignificand shift
    exact Or.inr (Nat.lt_of_lt_of_le hlt (one_shiftLeft_le (by omega)))
  · obtain ⟨more, rfl⟩ := Nat.exists_eq_add_of_le hshift
    refine Or.inl ⟨significand <<< more, ?_⟩
    rw [shiftLeft_eq_mul, ← one_shiftLeft_mul, Nat.mul_left_comm, ← shiftLeft_eq_mul, unitsInOne]

theorem isFinite_roundPlaces (places : Nat) (hx : x.isFinite = true) :
    (x.roundPlaces places).isFinite = true := by
  cases x with
  | infinite _ | nan => exact Bool.noConfusion hx
  | finite negative magnitude =>
      have hten := tenTo_pos places
      have hfinite {bound : Nat} (hbound : Representable bound)
          (h : roundHalfEven (magnitude.units * tenTo places) unitsInOne * unitsInOne ≤
            bound * tenTo places) :
          ((finite negative magnitude).roundPlaces places).isFinite = true := by
        obtain ⟨rounded, heq, _⟩ := ofUnits_le negative hten hbound h
        exact (congrArg isFinite heq).trans rfl
      rcases unitsInOne_dvd_or_lt magnitude with ⟨whole, hwhole⟩ | hlt
      · -- a whole number is not changed
        refine hfinite magnitude.representable (Nat.le_of_eq ?_)
        rw [hwhole, Nat.mul_assoc, Nat.mul_comm unitsInOne, roundHalfEven_mul unitsInOne_pos,
          Nat.mul_right_comm]
      · refine hfinite (representable_one_shiftLeft (k := 1128) (by decide)) ?_
        have hunits : magnitude.units * tenTo places ≤ 1 <<< 1127 * tenTo places :=
          Nat.mul_le_mul_right _ (Nat.le_of_lt hlt)
        have hone : unitsInOne ≤ 1 <<< 1127 * tenTo places :=
          Nat.le_trans (one_shiftLeft_le (by decide)) (Nat.le_mul_of_pos_right _ hten)
        calc roundHalfEven (magnitude.units * tenTo places) unitsInOne * unitsInOne
            ≤ magnitude.units * tenTo places + unitsInOne := roundHalfEven_mul_le _ _
          _ ≤ 1 <<< 1127 * tenTo places + 1 <<< 1127 * tenTo places :=
            Nat.add_le_add hunits hone
          _ = 1 <<< 1128 * tenTo places := by
            rw [← Nat.add_mul, ← Nat.two_mul, ← Nat.shiftLeft_succ]

theorem isNaN_of_isFinite (h : x.isFinite = true) : x.isNaN = false := by
  cases x with
  | finite _ _ => rfl
  | infinite _ | nan => exact Bool.noConfusion h

theorem isFinite_roundPlaces_iff (places : Nat) :
    (x.roundPlaces places).isFinite = true ↔ x.isFinite = true := by
  cases x with
  | finite _ _ => exact iff_of_true (isFinite_roundPlaces places rfl) rfl
  | infinite _ | nan => exact Iff.rfl

theorem isNaN_roundPlaces (places : Nat) (hx : x.isNaN = false) :
    (x.roundPlaces places).isNaN = false := by
  cases x with
  | finite _ _ => exact isNaN_of_isFinite (isFinite_roundPlaces places rfl)
  | infinite _ => rfl
  | nan => exact Bool.noConfusion hx

/-! ## Finite operands -/

theorem isFinite_zero : (0 : Binary64).isFinite = true := within_zero.isFinite

theorem isFinite_one : (1 : Binary64).isFinite = true := within_one.isFinite

theorem isFinite_finiteOr {fallback : Binary64} (h : fallback.isFinite = true) (x : Binary64) :
    (x.finiteOr fallback).isFinite = true := by
  rw [finiteOr]
  split
  · assumption
  · exact h

theorem isNaN_ofUnits (negative : Bool) (num den : Nat) :
    (ofUnits negative num den).isNaN = false := by
  unfold ofUnits
  dsimp only
  split <;> rfl

theorem isNaN_sub (hx : x.isFinite = true) (hy : y.isFinite = true) :
    (x - y).isNaN = false := by
  cases x with
  | infinite _ | nan => exact Bool.noConfusion hx
  | finite s a =>
    cases y with
    | infinite _ | nan => exact Bool.noConfusion hy
    | finite t b =>
        change (Binary64.add _ _).isNaN = false
        simp only [Binary64.add, Binary64.neg]
        split <;> exact isNaN_ofUnits _ _ _

theorem isNaN_mul (hx : x.isFinite = true) (hy : y.isFinite = true) :
    (x * y).isNaN = false := by
  cases x with
  | infinite _ | nan => exact Bool.noConfusion hx
  | finite s a =>
    cases y with
    | infinite _ | nan => exact Bool.noConfusion hy
    | finite t b =>
        rw [finite_mul_finite]
        exact isNaN_ofUnits _ _ _

theorem isNaN_divNat (hx : x.isNaN = false) (divisor : Nat) :
    (x.divNat divisor).isNaN = false := by
  cases x with
  | finite s a => exact isNaN_ofUnits _ _ _
  | infinite _ => rfl
  | nan => exact Bool.noConfusion hx

end Binary64
end DesignToWeb
