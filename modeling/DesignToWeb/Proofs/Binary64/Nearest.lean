import DesignToWeb.Proofs.Binary64.Whole

/-!
# Nearest numbers

Rounding keeps the order of quotients.  So quotients that are equal are rounded to the same
number, and so is every quotient between two that are rounded to it.  What lies nearer to a
number than half of its last place is rounded to that number.
-/

namespace DesignToWeb

/-! ## Whole numbers -/

/-- The rounded quotient is off by at most half a unit. -/
theorem roundHalfEven_near (num : Nat) {den : Nat} (hden : 0 < den) :
    2 * num ≤ (2 * roundHalfEven num den + 1) * den ∧
      2 * (roundHalfEven num den * den) ≤ 2 * num + den := by
  have hnum := Nat.div_add_mod num den
  have hlt := Nat.mod_lt num hden
  have hcomm : num / den * den = den * (num / den) := Nat.mul_comm _ _
  unfold roundHalfEven
  dsimp only
  split
  · next hup =>
      rw [Nat.add_mul, Nat.mul_assoc, Nat.add_mul, hcomm]
      omega
  · next hdown =>
      rw [Nat.add_mul, Nat.mul_assoc, hcomm]
      omega

/-- What is at least half a unit below an even number is rounded up to it at least. -/
theorem le_roundHalfEven_iff {num den bound : Nat} (hden : 0 < den) (heven : bound % 2 = 0) :
    bound ≤ roundHalfEven num den ↔ 2 * (bound * den) ≤ 2 * num + den := by
  have hnum := Nat.div_add_mod' num den
  have hlt := Nat.mod_lt num hden
  rcases Nat.lt_trichotomy bound (num / den + 1) with hbelow | hnext | habove
  · have hle := le_roundHalfEven num den
    have hmul := Nat.mul_le_mul_right den (Nat.le_of_lt_succ hbelow)
    omega
  · -- the quotient is odd, so a half is rounded up
    have hodd : num / den % 2 = 1 := by omega
    have hmul : bound * den = num / den * den + den := by rw [hnext, Nat.succ_mul]
    unfold roundHalfEven
    dsimp only
    split <;> omega
  · have hle := roundHalfEven_le num den
    have hmul := Nat.mul_le_mul_right den (Nat.succ_le_of_lt habove)
    rw [Nat.succ_mul, Nat.succ_mul] at hmul
    omega

/-- A number is the rounded quotient if it is off by less than half a unit. -/
theorem roundHalfEven_eq_of_near {num den whole : Nat} (hden : 0 < den)
    (hlow : 2 * (whole * den) < 2 * num + den) (hhigh : 2 * num < 2 * (whole * den) + den) :
    roundHalfEven num den = whole := by
  obtain ⟨hup, hdown⟩ := roundHalfEven_near num hden
  rw [Nat.add_mul, Nat.mul_assoc, Nat.one_mul] at hup
  apply Nat.le_antisymm
  · apply Nat.le_of_lt_succ
    apply Nat.lt_of_mul_lt_mul_right (a := den)
    rw [Nat.succ_mul]
    omega
  · apply Nat.le_of_lt_succ
    apply Nat.lt_of_mul_lt_mul_right (a := den)
    rw [Nat.succ_mul]
    omega

section Order

variable {num den num' den' : Nat}

theorem div_le_div_of_mul_le (hden : 0 < den) (hden' : 0 < den') (h : num * den' ≤ num' * den) :
    num / den ≤ num' / den' := by
  apply (Nat.le_div_iff_mul_le hden').mpr
  apply Nat.le_of_mul_le_mul_right _ hden
  calc num / den * den' * den = num / den * den * den' := Nat.mul_right_comm _ _ _
    _ ≤ num * den' := Nat.mul_le_mul_right den' (Nat.div_mul_le_self num den)
    _ ≤ num' * den := h

theorem roundHalfEven_mono (hden : 0 < den) (hden' : 0 < den') (h : num * den' ≤ num' * den) :
    roundHalfEven num den ≤ roundHalfEven num' den' := by
  rcases Nat.lt_or_eq_of_le (div_le_div_of_mul_le hden hden' h) with hlt | heq
  · exact Nat.le_trans (roundHalfEven_le num den)
      (Nat.le_trans (Nat.succ_le_of_lt hlt) (le_roundHalfEven num' den'))
  · -- the remainders are in the order of the quotients
    have hrest : num % den * den' ≤ num' % den' * den := by
      have hnum := congrArg (· * den') (Nat.div_add_mod' num den)
      have hnum' := congrArg (· * den) (Nat.div_add_mod' num' den')
      simp only [Nat.add_mul] at hnum hnum'
      rw [heq, Nat.mul_right_comm] at hnum
      omega
    have hhalf : den ≤ 2 * (num % den) → den' ≤ 2 * (num' % den') := by
      intro hle
      apply Nat.le_of_mul_le_mul_right _ hden
      have hmul := Nat.mul_le_mul_right den' hle
      rw [Nat.mul_assoc] at hmul ⊢
      rw [Nat.mul_comm den' den]
      omega
    have hover : den < 2 * (num % den) → den' < 2 * (num' % den') := by
      intro hlt
      apply Nat.lt_of_mul_lt_mul_right (a := den)
      have hmul := Nat.mul_lt_mul_of_pos_right hlt hden'
      rw [Nat.mul_assoc] at hmul ⊢
      rw [Nat.mul_comm den' den]
      omega
    unfold roundHalfEven
    dsimp only
    rw [heq]
    split <;> split <;> omega

end Order

namespace Binary64

/-! ## Numbers -/

/-- The units of the nearest number, if the numbers did not end. -/
def nearestUnits (num den : Nat) : Nat :=
  roundHalfEven num (den <<< excess (num / den)) <<< excess (num / den)

variable {negative : Bool} {magnitude : Magnitude} {num den num' den' units : Nat}

theorem ofUnits_eq_finite_iff :
    ofUnits negative num den = finite negative magnitude ↔
      nearestUnits num den = magnitude.units := by
  unfold ofUnits
  constructor
  · intro h
    dsimp only at h
    split at h
    · exact congrArg Magnitude.units (finite.inj h).2
    · exact Binary64.noConfusion h
  · intro h
    have hlt : nearestUnits num den < unitsLimit := h ▸ magnitude.representable.1
    refine (dif_pos hlt).trans ?_
    congr

theorem exists_of_isFinite_ofUnits (h : (ofUnits negative num den).isFinite = true) :
    ∃ magnitude, ofUnits negative num den = finite negative magnitude := by
  unfold ofUnits at h ⊢
  dsimp only at h ⊢
  split at h
  · next hlt => exact ⟨_, dif_pos hlt⟩
  · exact Bool.noConfusion h

theorem nearestUnits_of_representable (h : Representable units) : nearestUnits units 1 = units :=
  ofUnits_eq_finite_iff.mp (ofUnits_of_representable false h)

theorem shiftLeft_pos {n : Nat} (hn : 0 < n) (k : Nat) : 0 < n <<< k := by
  rw [shiftLeft_eq_mul]
  exact Nat.mul_pos hn (one_shiftLeft_pos k)

/-! ## Bits in excess -/

theorem excess_mono {q q' : Nat} (h : q ≤ q') : excess q ≤ excess q' := by
  apply Nat.sub_le_sub_right
  by_cases hzero : q = 0
  · rw [hzero]
    exact Nat.zero_le _
  · have hself : 2 ^ q.log2 ≤ q := Nat.log2_self_le hzero
    exact (Nat.le_log2 (by omega)).mpr (Nat.le_trans hself h)

theorem lt_one_shiftLeft_excess (q : Nat) : q < 1 <<< (53 + excess q) := by
  rw [Nat.one_shiftLeft]
  refine Nat.lt_of_lt_of_le Nat.lt_log2_self (Nat.pow_le_pow_right (by decide) ?_)
  unfold excess
  omega

theorem one_shiftLeft_excess_le {q : Nat} (h : 0 < excess q) : 1 <<< (52 + excess q) ≤ q := by
  have hlog : 52 + excess q = q.log2 := by
    unfold excess at h ⊢
    omega
  have hzero : q ≠ 0 := by
    rintro rfl
    exact Nat.lt_irrefl 0 h
  rw [Nat.one_shiftLeft, hlog]
  exact Nat.log2_self_le hzero

theorem le_excess {q shift : Nat} (h : 1 <<< (52 + shift) ≤ q) : shift ≤ excess q := by
  apply Nat.le_of_not_lt
  intro hlt
  have hbits := Nat.lt_of_le_of_lt h (lt_one_shiftLeft_excess q)
  exact absurd (one_shiftLeft_le (by omega)) (Nat.not_le.mpr hbits)

theorem excess_eq {q shift : Nat} (hlow : 1 <<< (52 + shift) ≤ q) (hhigh : q < 1 <<< (53 + shift)) :
    excess q = shift := by
  have hzero : q ≠ 0 := Nat.ne_of_gt (Nat.lt_of_lt_of_le (one_shiftLeft_pos _) hlow)
  rw [Nat.one_shiftLeft] at hlow hhigh
  have hlog : q.log2 = 52 + shift :=
    (Nat.log2_eq_iff hzero).mpr ⟨hlow, by rwa [Nat.add_right_comm]⟩
  rw [excess, hlog]
  omega

/-! ## The order of nearest numbers -/

theorem nearestUnits_le (num den : Nat) :
    nearestUnits num den ≤ 1 <<< (53 + excess (num / den)) := by
  rw [nearestUnits, shiftLeft_eq_mul, ← one_shiftLeft_mul]
  exact Nat.mul_le_mul_right _ (roundHalfEven_excess_le num den)

theorem le_nearestUnits_of_excess (num den : Nat) (h : 0 < excess (num / den)) :
    1 <<< (52 + excess (num / den)) ≤ nearestUnits num den := by
  rw [nearestUnits, shiftLeft_eq_mul (roundHalfEven _ _), ← one_shiftLeft_mul]
  apply Nat.mul_le_mul_right
  refine Nat.le_trans ?_ (le_roundHalfEven _ _)
  rw [shiftLeft_eq_mul den, ← Nat.div_div_eq_div_mul, Nat.le_div_iff_mul_le (one_shiftLeft_pos _),
    one_shiftLeft_mul]
  exact one_shiftLeft_excess_le h

theorem nearestUnits_mono (hden : 0 < den) (hden' : 0 < den') (h : num * den' ≤ num' * den) :
    nearestUnits num den ≤ nearestUnits num' den' := by
  have hexcess := excess_mono (div_le_div_of_mul_le hden hden' h)
  rcases Nat.lt_or_eq_of_le hexcess with hlt | heq
  · have hpos : 0 < excess (num' / den') := Nat.lt_of_le_of_lt (Nat.zero_le _) hlt
    calc nearestUnits num den ≤ 1 <<< (53 + excess (num / den)) := nearestUnits_le num den
      _ ≤ 1 <<< (52 + excess (num' / den')) := one_shiftLeft_le (by omega)
      _ ≤ nearestUnits num' den' := le_nearestUnits_of_excess num' den' hpos
  · unfold nearestUnits
    rw [heq, shiftLeft_eq_mul, shiftLeft_eq_mul (roundHalfEven num' _)]
    apply Nat.mul_le_mul_right
    apply roundHalfEven_mono (shiftLeft_pos hden _) (shiftLeft_pos hden' _)
    rw [shiftLeft_eq_mul, shiftLeft_eq_mul den, ← Nat.mul_assoc, ← Nat.mul_assoc]
    exact Nat.mul_le_mul_right _ h

theorem nearestUnits_congr (hden : 0 < den) (hden' : 0 < den') (h : num * den' = num' * den) :
    nearestUnits num den = nearestUnits num' den' :=
  Nat.le_antisymm (nearestUnits_mono hden hden' (Nat.le_of_eq h))
    (nearestUnits_mono hden' hden (Nat.le_of_eq h.symm))

/-- What is nearer to a number than half of its last place is rounded to it.  The number has all
the bits it may have, and is no power of two, below which the places are half as large. -/
theorem nearestUnits_eq_of_near {significand shift : Nat} (hden : 0 < den)
    (hlow : 1 <<< 52 < significand) (hhigh : significand < 1 <<< 53)
    (hbelow : 2 * (significand <<< shift * den) < 2 * num + den <<< shift)
    (habove : 2 * num < 2 * (significand <<< shift * den) + den <<< shift) :
    nearestUnits num den = significand <<< shift := by
  have hplace (n : Nat) : n <<< shift * den = n * den <<< shift := by
    rw [shiftLeft_eq_mul, shiftLeft_eq_mul den, Nat.mul_right_comm, Nat.mul_assoc]
  rw [hplace] at hbelow habove
  have hexcess : excess (num / den) = shift := by
    apply excess_eq
    · have hmul := Nat.mul_le_mul_right (den <<< shift) (Nat.succ_le_of_lt hlow)
      rw [Nat.succ_mul] at hmul
      rw [Nat.le_div_iff_mul_le hden, Nat.shiftLeft_add, hplace]
      omega
    · have hmul := Nat.mul_le_mul_right (den <<< shift) (Nat.succ_le_of_lt hhigh)
      rw [Nat.succ_mul] at hmul
      rw [Nat.div_lt_iff_lt_mul hden, Nat.shiftLeft_add, hplace]
      omega
  unfold nearestUnits
  rw [hexcess, roundHalfEven_eq_of_near (shiftLeft_pos hden shift) hbelow habove]

end Binary64
end DesignToWeb
