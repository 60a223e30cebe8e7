import DesignToWeb.Heading
import DesignToWeb.Proofs.Binary64.Rounding

/-!
# Headings are finite

However large the components of a direction are, and even if a difference of two
coordinates has left the range of numbers, its heading is a finite number.  The
angle is a sum of two hundred terms that do not grow, and all that follows is
arithmetic below a power of two.
-/

namespace DesignToWeb

open Binary64

namespace Heading

/-! ## Angles -/

/-- One term more of the series for the arctangent, with the sum so far. -/
def seriesStep (num square : Nat) (state : Nat × Nat) (n : Nat) : Nat × Nat :=
  let term := state.2 * ((2 * n + 2) * (num * num)) / ((2 * n + 3) * square)
  (state.1 + term, term)

theorem seriesStep_le {num square : Nat} (h : num * num ≤ square) (state : Nat × Nat) (n : Nat) :
    (seriesStep num square state n).2 ≤ state.2 :=
  Nat.div_le_of_le_mul (by
    rw [Nat.mul_comm]
    exact Nat.mul_le_mul_right _ (Nat.mul_le_mul (by omega) h))

theorem foldl_seriesStep_le {num square : Nat} (h : num * num ≤ square) (indices : List Nat)
    (state : Nat × Nat) :
    (indices.foldl (seriesStep num square) state).1 ≤ state.1 + indices.length * state.2 := by
  induction indices generalizing state with
  | nil => exact Nat.le_add_right _ _
  | cons n rest ih =>
      have hterm := seriesStep_le h state n
      have hrest := Nat.mul_le_mul_left rest.length hterm
      have hsum : (seriesStep num square state n).1 = state.1 + (seriesStep num square state n).2 :=
        rfl
      rw [List.foldl_cons, List.length_cons, Nat.add_mul, Nat.one_mul]
      refine Nat.le_trans (ih _) ?_
      omega

theorem arctangent_le (num den : Nat) : arctangent num den ≤ 1 <<< 200 := by
  have hfirst : precision * num * den / (num * num + den * den) ≤ precision := by
    refine Nat.div_le_of_le_mul ?_
    rw [Nat.mul_assoc, Nat.mul_comm]
    refine Nat.mul_le_mul_right _ ?_
    rcases Nat.le_total num den with hle | hle
    · exact Nat.le_trans (Nat.mul_le_mul_right den hle) (Nat.le_add_left _ _)
    · exact Nat.le_trans (Nat.mul_le_mul_left num hle) (Nat.le_add_right _ _)
  have hsum := foldl_seriesStep_le (Nat.le_add_right (num * num) (den * den)) (List.range 200)
    (precision * num * den / (num * num + den * den), precision * num * den /
      (num * num + den * den))
  rw [List.length_range] at hsum
  have hbound : precision + 200 * precision ≤ 1 <<< 200 := by decide
  change (List.foldl (seriesStep num _) _ _).1 ≤ _
  exact Nat.le_trans hsum (Nat.le_trans (by omega) hbound)

theorem halfTurn_le : halfTurn ≤ 1 <<< 202 :=
  Nat.le_trans (Nat.mul_le_mul_left 4 (arctangent_le 1 1)) (by decide)

theorem quadrantAngle_le (across up : Nat) : quadrantAngle across up ≤ 1 <<< 202 := by
  unfold quadrantAngle
  split
  · exact Nat.le_trans (arctangent_le _ _) (by decide)
  · exact Nat.le_trans (Nat.sub_le _ _) (Nat.le_trans (Nat.div_le_self _ _) halfTurn_le)

theorem precision_pos : 0 < precision := one_shiftLeft_pos 192

theorem within_ofRatio_precision {angle : Nat} (negative : Bool) (h : angle ≤ 1 <<< 202) :
    Within (10 + 1074) (ofRatio negative angle precision) := by
  refine within_ofRatio negative precision_pos (by decide) ?_
  rw [precision, one_shiftLeft_mul]
  exact h

/-- The angle of a direction, whose components may be infinite, is a bounded number. -/
theorem within_radians {dx dy : Binary64} (hdx : dx.isNaN = false) (hdy : dy.isNaN = false) :
    Within (10 + 1074) (radians dx dy) := by
  have hlengths : ∃ across up, lengths dx dy = some (across, up) := by
    cases dx with
    | nan => exact Bool.noConfusion hdx
    | finite _ _ | infinite _ =>
      cases dy with
      | nan => exact Bool.noConfusion hdy
      | finite _ _ | infinite _ => exact ⟨_, _, rfl⟩
  obtain ⟨across, up, hlengths⟩ := hlengths
  have hangle : (if isNegative dx then halfTurn - quadrantAngle across up
      else quadrantAngle across up) ≤ 1 <<< 202 := by
    split
    · exact Nat.le_trans (Nat.sub_le _ _) halfTurn_le
    · exact quadrantAngle_le _ _
  rw [radians, hlengths]
  exact within_ofRatio_precision _ hangle

theorem within_degreesPerRadian : Within (6 + 1074) degreesPerRadian := by decide +kernel

end Heading

/-! ## Degrees -/

theorem within_wrap {angle : Binary64} (h : angle.isFinite = true) :
    Within (9 + 1075) (Degrees.wrap angle) :=
  within_modNat (by decide) (by decide) (by decide) h

theorem isFinite_fromVertical {angle : Binary64} (h : Within (9 + 1075) angle) :
    (Degrees.fromVertical angle).isFinite = true := by
  have hninety : Within (9 + 1075) (90 : Binary64) :=
    (within_ofNat (k := 7) (by decide) (by decide)).mono (by decide)
  exact (hninety.sub h (by decide)).isFinite

theorem isFinite_headingOf {angle : Binary64} (h : angle.isFinite = true) :
    (headingOf angle).isFinite = true := by
  have hvertical := isFinite_fromVertical (within_wrap h)
  have hrounded := isFinite_roundPlaces 4 (within_wrap hvertical).isFinite
  exact (within_wrap hrounded).isFinite

theorem isFinite_heading {dx dy : Binary64} (hdx : dx.isNaN = false) (hdy : dy.isNaN = false) :
    (heading dx dy).isFinite = true := by
  unfold heading
  split
  · rfl
  · have hdegrees := (Heading.within_radians hdx hdy).mul Heading.within_degreesPerRadian
      (l := 1090) rfl (by decide)
    exact isFinite_headingOf hdegrees.isFinite

end DesignToWeb
