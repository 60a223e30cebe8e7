import DesignToWeb.Proofs.Binary64.Rounding

/-!
# Whole numbers

A number that can be represented is not rounded at all.  Whole numbers of at most
`2 ^ 53` can be, so they are held exactly, and their differences are exact as
long as these are no larger.
-/

namespace DesignToWeb

theorem representable_mul_unitsInOne {n : Nat} (h : n ≤ 1 <<< 53) :
    Representable (n * unitsInOne) := by
  have hunits : n * unitsInOne = n <<< 1074 := (shiftLeft_eq_mul n 1074).symm
  rw [hunits]
  refine representable_of_le h ?_
  have hle : n <<< 1074 ≤ 1 <<< 53 * 1 <<< 1074 := by
    rw [shiftLeft_eq_mul]
    exact Nat.mul_le_mul_right _ h
  rw [one_shiftLeft_mul] at hle
  exact Nat.lt_of_le_of_lt hle (one_shiftLeft_lt (by decide))

namespace Binary64

/-- What can be represented is a whole number of units in its last place. -/
theorem exists_eq_shiftLeft_excess {units : Nat} (h : Representable units) :
    ∃ significand, units = significand <<< excess units := by
  obtain ⟨_, significand, shift, hsignificand, heq⟩ := h
  obtain ⟨rest, hrest⟩ := Nat.exists_eq_add_of_le' (excess_le hsignificand (Nat.le_of_eq heq))
  refine ⟨significand <<< rest, ?_⟩
  rw [← Nat.shiftLeft_add, ← hrest]
  exact heq

theorem ofUnits_of_representable (negative : Bool) {units : Nat} (h : Representable units) :
    ofUnits negative units 1 = finite negative ⟨units, h⟩ := by
  have hrounded : roundHalfEven units (1 <<< excess (units / 1)) <<< excess (units / 1) =
      units := by
    obtain ⟨significand, heq⟩ := exists_eq_shiftLeft_excess h
    have hround := roundHalfEven_mul (one_shiftLeft_pos (excess units)) significand
    rw [← shiftLeft_eq_mul, ← heq] at hround
    rw [Nat.div_one, hround]
    exact heq.symm
  have hfinite := Nat.lt_of_le_of_lt (Nat.le_of_eq hrounded) h.1
  refine (dif_pos hfinite).trans ?_
  congr

theorem ofNat_of_le {n : Nat} (h : n ≤ 1 <<< 53) :
    ofNat n = finite false ⟨n * unitsInOne, representable_mul_unitsInOne h⟩ :=
  ofUnits_of_representable false (representable_mul_unitsInOne h)

/-! ## Whole numbers that numbers are -/

def IsInt (x : Binary64) (n : Int) : Prop :=
  ∃ negative magnitude, x = finite negative magnitude ∧
    signedUnits negative magnitude = n * unitsInOne

theorem IsInt.isFinite {x : Binary64} {n : Int} (h : IsInt x n) : x.isFinite = true := by
  obtain ⟨negative, magnitude, rfl, _⟩ := h
  rfl

theorem unitsInOne_ne_zero : (unitsInOne : Int) ≠ 0 :=
  Int.natCast_ne_zero.mpr (Nat.ne_of_gt unitsInOne_pos)

variable {x y : Binary64} {m n : Int}

section Ones

variable {negative : Bool} {magnitude : Magnitude} {ones : Nat}

theorem signedUnits_of_ones (h : magnitude.units = ones * unitsInOne) :
    signedUnits negative magnitude = (if negative then -(ones : Int) else ones) * unitsInOne := by
  rw [signedUnits, h, Int.natCast_mul]
  split
  · exact (Int.neg_mul _ _).symm
  · rfl

theorem whole?_of_ones (h : magnitude.units = ones * unitsInOne) :
    (finite negative magnitude).whole? = some (if negative then -(ones : Int) else ones) := by
  have hwhole : (finite negative magnitude).isWhole = true := by
    rw [isWhole, h, Nat.mul_mod_left]
    rfl
  rw [whole?, if_pos hwhole, truncate?, h, ← Int.natCast_ediv,
    Nat.mul_div_cancel _ unitsInOne_pos]

end Ones

theorem units_of_signedUnits {negative : Bool} {magnitude : Magnitude}
    (h : signedUnits negative magnitude = n * unitsInOne) :
    magnitude.units = n.natAbs * unitsInOne := by
  rw [← natAbs_signedUnits negative magnitude, h, Int.natAbs_mul, Int.natAbs_natCast]

theorem isInt_iff : IsInt x n ↔ x.whole? = some n := by
  constructor
  · rintro ⟨negative, magnitude, rfl, hunits⟩
    have hones := units_of_signedUnits hunits
    rw [signedUnits_of_ones hones] at hunits
    rw [whole?_of_ones hones]
    exact congrArg some (Int.eq_of_mul_eq_mul_right unitsInOne_ne_zero hunits)
  · intro h
    unfold whole? at h
    split at h
    · next hwhole =>
        cases x with
        | infinite _ | nan => exact Bool.noConfusion hwhole
        | finite negative magnitude =>
            have hones : magnitude.units = magnitude.units / unitsInOne * unitsInOne :=
              (Nat.div_mul_cancel (Nat.dvd_of_mod_eq_zero (eq_of_beq hwhole))).symm
            refine ⟨negative, magnitude, rfl, ?_⟩
            rw [signedUnits_of_ones hones, ← Option.some.inj h, Int.natCast_ediv]
    · exact nomatch h

/-! ## Exact operations -/

theorem signedUnits_natAbs {total : Int} (h : Representable total.natAbs) :
    signedUnits (total < 0) ⟨total.natAbs, h⟩ = total := by
  unfold signedUnits
  split
  · next hneg =>
      have hneg := of_decide_eq_true hneg
      dsimp only
      omega
  · next hpos =>
      have hpos : ¬ total < 0 := fun hneg ↦ hpos (decide_eq_true hneg)
      dsimp only
      omega

/-- As many units as a whole number has that is not too large come to that number. -/
theorem isInt_ofUnits {total : Int} (htotal : total = n * unitsInOne) (hn : n.natAbs ≤ 1 <<< 53) :
    IsInt (ofUnits (total < 0) total.natAbs 1) n := by
  have h : Representable total.natAbs := by
    rw [htotal, Int.natAbs_mul, Int.natAbs_natCast]
    exact representable_mul_unitsInOne hn
  rw [ofUnits_of_representable _ h]
  exact ⟨_, _, rfl, (signedUnits_natAbs h).trans htotal⟩

theorem isInt_ofInt (hn : n.natAbs ≤ 1 <<< 53) : IsInt (ofInt n) n := by
  have hpos : (0 : Int) < unitsInOne := Int.natCast_pos.mpr unitsInOne_pos
  have hsign : n * unitsInOne < 0 ↔ n < 0 :=
    ⟨fun h ↦ Int.neg_of_mul_neg_left h hpos, fun h ↦ Int.mul_neg_of_neg_of_pos h hpos⟩
  have hunits := isInt_ofUnits (n := n) rfl hn
  rwa [Int.natAbs_mul, Int.natAbs_natCast, decide_eq_decide.mpr hsign] at hunits

theorem isInt_zero : IsInt 0 0 := ⟨false, ⟨0, representable_zero⟩, rfl, (Int.zero_mul _).symm⟩

theorem IsInt.sub (hx : IsInt x m) (hy : IsInt y n) (hle : (m - n).natAbs ≤ 1 <<< 53) :
    IsInt (x - y) (m - n) := by
  obtain ⟨s, a, rfl, ha⟩ := hx
  obtain ⟨t, b, rfl, hb⟩ := hy
  have htotal : signedUnits s a + signedUnits (!t) b = (m - n) * unitsInOne := by
    have hneg : signedUnits (!t) b = -signedUnits t b := by
      cases t <;> simp [signedUnits]
    rw [hneg, ha, hb, Int.sub_mul, Int.sub_eq_add_neg]
  change IsInt (add (finite s a) (finite (!t) b)) (m - n)
  unfold add
  dsimp only
  split
  · next hzero =>
      have hmn : m - n = 0 := (Int.mul_eq_zero.mp (htotal.symm.trans hzero)).resolve_right
        unitsInOne_ne_zero
      rw [hmn, ofUnits_of_representable _ representable_zero]
      exact ⟨_, _, rfl, by simp [signedUnits]⟩
  · exact isInt_ofUnits htotal hle

end Binary64
end DesignToWeb
