import DesignToWeb.Proofs.Binary64.Rounding

/-!
# Signs

A number is not negative if it does not lie below zero; the negative zero does not either.
Rounding leads no number below zero, so factors that are not negative have such a product.
-/

namespace DesignToWeb.Binary64

variable {x y : Binary64}

theorem finite_lt_zero_iff {negative : Bool} {magnitude : Magnitude} :
    (finite negative magnitude).lt 0 = true ↔ negative = true ∧ magnitude.units ≠ 0 := by
  rw [lt, position_zero]
  change decide (signedUnits negative magnitude < 0) = true ↔ _
  rw [decide_eq_true_iff, signedUnits]
  cases negative with
  | false => exact iff_of_false (Int.not_lt.mpr (Int.natCast_nonneg _)) nofun
  | true =>
      rw [if_pos rfl, and_iff_right rfl]
      omega

theorem infinite_lt_zero_iff {negative : Bool} :
    (infinite negative).lt 0 = true ↔ negative = true := by
  rw [lt, position_zero]
  cases negative <;> decide

theorem roundHalfEven_zero (den : Nat) : roundHalfEven 0 den = 0 := by simp [roundHalfEven]

theorem ofUnits_zero (negative : Bool) (den : Nat) :
    ofUnits negative 0 den = finite negative ⟨0, representable_zero⟩ := by
  unfold ofUnits
  simp only [roundHalfEven_zero, Nat.zero_shiftLeft, dif_pos unitsLimit_pos]

theorem ofUnits_lt_zero {negative : Bool} {num den : Nat}
    (h : (ofUnits negative num den).lt 0 = true) : negative = true ∧ num ≠ 0 := by
  constructor
  · unfold ofUnits at h
    dsimp only at h
    split at h
    · exact (finite_lt_zero_iff.mp h).1
    · exact infinite_lt_zero_iff.mp h
  · rintro rfl
    rw [ofUnits_zero] at h
    exact (finite_lt_zero_iff.mp h).2 rfl

theorem isFinite_right_of_mul (h : (x * y).isFinite = true) : y.isFinite = true := by
  cases y with
  | finite _ _ => rfl
  | nan =>
      cases x with
      | finite _ _ | infinite _ | nan => exact Bool.noConfusion h
  | infinite t =>
      cases x with
      | infinite _ | nan => exact Bool.noConfusion h
      | finite s a =>
          change (if a.units = 0 then nan else infinite (s != t)).isFinite = true at h
          split at h
          · exact Bool.noConfusion h
          · exact Bool.noConfusion h

theorem mul_lt_zero (hx : x.isFinite = true) (hy : y.isFinite = true)
    (h : (x * y).lt 0 = true) : x.lt 0 = true ∨ y.lt 0 = true := by
  cases x with
  | infinite _ | nan => exact Bool.noConfusion hx
  | finite s a =>
    cases y with
    | infinite _ | nan => exact Bool.noConfusion hy
    | finite t b =>
        rw [finite_mul_finite] at h
        obtain ⟨hsign, hunits⟩ := ofUnits_lt_zero h
        rw [finite_lt_zero_iff, finite_lt_zero_iff]
        obtain ⟨ha, hb⟩ := Nat.mul_ne_zero_iff.mp hunits
        cases s with
        | true => exact Or.inl ⟨rfl, ha⟩
        | false =>
            cases t with
            | true => exact Or.inr ⟨rfl, hb⟩
            | false => exact Bool.noConfusion hsign

/-- What rounding to decimals leaves below zero was below zero before. -/
theorem lt_zero_of_roundPlaces {places : Nat} (h : (x.roundPlaces places).lt 0 = true) :
    x.lt 0 = true := by
  cases x with
  | finite negative magnitude =>
      obtain ⟨hnegative, hnum⟩ := ofUnits_lt_zero h
      refine finite_lt_zero_iff.mpr ⟨hnegative, fun hzero ↦ hnum ?_⟩
      rw [hzero, Nat.zero_mul, roundHalfEven_zero, Nat.zero_mul]
  | infinite _ | nan => exact h

theorem ofInt_lt_zero {n : Int} (h : (ofInt n).lt 0 = true) : n < 0 :=
  of_decide_eq_true (ofUnits_lt_zero h).1

end DesignToWeb.Binary64
