import DesignToWeb.Proofs.Binary64.Nearest
import DesignToWeb.Proofs.Binary64.Sign
import DesignToWeb.Proofs.Heading
import Mathlib.Data.Rat.Floor
import Mathlib.Tactic.Linarith

/-!
# Headings within one turn

Wrapping an angle subtracts whole turns, and rounding moves it by at most half of the
last decimal.  Rounding can lead up to a full turn, which the last wrap makes zero.  So
a heading lies below a full turn, and differs from the exact one by whole turns but for
the rounding.  On binary64 numbers, where a small negative angle may itself be wrapped to
a full turn, it lies below a full turn all the same.
-/

namespace DesignToWeb

open Binary64

/-! ## Rounding to decimals -/

/-- A quotient that is rounded in units of the last decimal is off by at most half of one. -/
theorem abs_roundHalfEven_sub_le {num den : Nat} (hden : 0 < den) (places : Nat) {q : Rat}
    (hq : q * den = num) :
    |(roundHalfEven (num * tenTo places) den / tenTo places : Rat) - q| ≤
      1 / (2 * tenTo places) := by
  have hden' : (0 : Rat) < den := Nat.cast_pos.mpr hden
  have hten : (0 : Rat) < tenTo places := Nat.cast_pos.mpr (tenTo_pos places)
  obtain ⟨hlow, hhigh⟩ := roundHalfEven_near (num * tenTo places) hden
  generalize roundHalfEven (num * tenTo places) den = whole at hlow hhigh ⊢
  have hlow' : 2 * (q * den * tenTo places) ≤ (2 * whole + 1) * den := by
    rw [hq]
    exact_mod_cast hlow
  have hhigh' : 2 * (whole * den) ≤ 2 * (q * den * tenTo places) + den := by
    rw [hq]
    exact_mod_cast hhigh
  have hlower : 2 * (q * tenTo places) ≤ 2 * whole + 1 :=
    le_of_mul_le_mul_right (by linarith) hden'
  have hupper : 2 * (whole : Rat) ≤ 2 * (q * tenTo places) + 1 :=
    le_of_mul_le_mul_right (by linarith) hden'
  rw [abs_le, div_sub' hten.ne', ← neg_div, div_le_div_iff₀ (by positivity) hten,
    div_le_div_iff₀ hten (by positivity)]
  constructor
  · nlinarith
  · nlinarith

/-- A rounded number is off by at most half of its last decimal. -/
theorem abs_roundRat_sub_le (places : Nat) (q : Rat) :
    |roundRat places q - q| ≤ 1 / (2 * tenTo places) := by
  have hnum : q * q.den = q.num := Rat.mul_den_eq_num q
  unfold roundRat
  dsimp only
  rw [Rat.mkRat_eq_div]
  split
  · next hneg =>
      have habs : -q * q.den = q.num.natAbs := by
        rw [neg_mul, hnum, Nat.cast_natAbs, abs_of_neg hneg]
        push_cast
        rfl
      rw [Int.cast_neg, Int.cast_natCast, neg_div, ← abs_neg, neg_sub, sub_neg_eq_add, add_comm,
        ← sub_neg_eq_add]
      exact abs_roundHalfEven_sub_le q.den_pos places habs
  · next hpos =>
      have habs : q * q.den = q.num.natAbs := by
        rw [hnum, Nat.cast_natAbs, abs_of_nonneg (not_lt.mp hpos)]
      rw [Int.cast_natCast]
      exact abs_roundHalfEven_sub_le q.den_pos places habs

theorem roundRat_of_nonneg {q : Rat} (h : 0 ≤ q) (places : Nat) :
    roundRat places q =
      (roundHalfEven (q.num.natAbs * tenTo places) q.den : Rat) / tenTo places := by
  unfold roundRat
  dsimp only
  rw [if_neg (not_lt.mpr (Rat.num_nonneg.mpr h)), Rat.mkRat_eq_div, Int.cast_natCast]

/-! ## Exact angles -/

namespace Heading

variable {angle : Rat}

theorem wrap_nonneg (angle : Rat) : 0 ≤ Degrees.wrap angle := by
  have hfloor := Rat.floor_le (angle / 360)
  change 0 ≤ angle - 360 * _
  linarith

theorem wrap_lt (angle : Rat) : Degrees.wrap angle < 360 := by
  have hfloor := Rat.lt_floor_add_one (angle / 360)
  push_cast at hfloor
  change angle - 360 * _ < 360
  linarith

theorem exists_wrap_eq (angle : Rat) : ∃ turns : Int, Degrees.wrap angle = angle - 360 * turns :=
  ⟨_, rfl⟩

theorem wrap_of_lt (hpos : 0 ≤ angle) (hlt : angle < 360) : Degrees.wrap angle = angle := by
  have hfloor : (angle / 360).floor = 0 := by
    apply le_antisymm
    · exact Int.lt_add_one_iff.mp (Rat.floor_lt_iff.mpr (by push_cast; linarith))
    · exact Rat.le_floor_iff.mpr (by push_cast; linarith)
  change angle - 360 * _ = angle
  rw [hfloor, Int.cast_zero, mul_zero, sub_zero]

theorem wrap_fullTurn : Degrees.wrap (360 : Rat) = 0 := by
  have hfloor : (1 : Rat).floor = 1 := by decide
  change (360 : Rat) - 360 * (360 / 360 : Rat).floor = 0
  rw [div_self (by norm_num), hfloor, Int.cast_one, mul_one, sub_self]

theorem round4_nonneg (hpos : 0 ≤ angle) : 0 ≤ Degrees.round4 angle := by
  change 0 ≤ roundRat 4 angle
  rw [roundRat_of_nonneg hpos]
  positivity

theorem num_of_nonneg (hpos : 0 ≤ angle) : (angle.num.natAbs : Rat) = angle * angle.den := by
  rw [Rat.mul_den_eq_num, Nat.cast_natAbs, abs_of_nonneg (Rat.num_nonneg.mpr hpos)]

theorem round4_of_nonneg (hpos : 0 ≤ angle) :
    Degrees.round4 angle =
      (roundHalfEven (angle.num.natAbs * 10000) angle.den : Rat) / 10000 := by
  have htenTo : ((tenTo 4 : Nat) : Rat) = 10000 := by norm_num [tenTo]
  have hround := roundRat_of_nonneg hpos 4
  rw [htenTo] at hround
  exact hround

theorem round4_le (hpos : 0 ≤ angle) (hlt : angle < 360) : Degrees.round4 angle ≤ 360 := by
  have hcast : (angle.num.natAbs * 10000 : Rat) ≤ 3600000 * angle.den := by
    have hden : (0 : Rat) < angle.den := Nat.cast_pos.mpr angle.den_pos
    rw [num_of_nonneg hpos]
    nlinarith
  have hle : roundHalfEven (angle.num.natAbs * 10000) angle.den ≤ 3600000 := by
    apply roundHalfEven_le_of_le angle.den_pos
    exact_mod_cast hcast
  rw [round4_of_nonneg hpos, div_le_iff₀ (by norm_num)]
  exact_mod_cast hle

/-- Rounding reaches a full turn from half of the last decimal below it on. -/
theorem round4_eq_fullTurn_iff (hpos : 0 ≤ angle) (hlt : angle < 360) :
    Degrees.round4 angle = 360 ↔ 360 - 1 / 20000 ≤ angle := by
  have hwhole : Degrees.round4 angle = 360 ↔
      3600000 ≤ roundHalfEven (angle.num.natAbs * 10000) angle.den := by
    rw [eq_iff_le_not_lt, not_lt, and_iff_right (round4_le hpos hlt), round4_of_nonneg hpos,
      le_div_iff₀ (by norm_num)]
    norm_num
  rw [hwhole, le_roundHalfEven_iff angle.den_pos (by decide), ← Nat.cast_le (α := Rat)]
  push_cast
  have hden : (0 : Rat) < 20000 * angle.den := by
    have hpos := Nat.cast_pos (α := Rat).mpr angle.den_pos
    positivity
  rw [num_of_nonneg hpos, ← mul_le_mul_iff_left₀ hden (b := 360 - 1 / 20000)]
  constructor
  · intro h
    linarith
  · intro h
    linarith

/-- The angle that a heading rounds. -/
def unrounded {α : Type} [Degrees α] (angle : α) : α :=
  Degrees.wrap (Degrees.fromVertical (Degrees.wrap angle))

theorem headingOf_eq {α : Type} [Degrees α] (angle : α) :
    headingOf angle = Degrees.wrap (Degrees.round4 (unrounded angle)) := rfl

theorem exists_unrounded_eq (angle : Rat) :
    ∃ turns : Int, unrounded angle = 90 - angle - 360 * turns := by
  obtain ⟨inner, hinner⟩ := exists_wrap_eq angle
  obtain ⟨outer, houter⟩ := exists_wrap_eq (Degrees.fromVertical (Degrees.wrap angle))
  refine ⟨outer - inner, ?_⟩
  rw [unrounded, houter, hinner]
  change 90 - (angle - 360 * inner) - 360 * outer = (_ : Rat)
  push_cast
  ring

/-- Rounding and wrapping once more lead to the same angle up to whole turns and half of the fourth
decimal. -/
theorem exists_wrap_round4_near (hpos : 0 ≤ angle) (hlt : angle < 360) :
    ∃ turns : Int, |Degrees.wrap (Degrees.round4 angle) - (angle - 360 * turns)| ≤ 5 / 100000 := by
  have hnear : |Degrees.round4 angle - angle| ≤ 5 / 100000 := by
    have hround := abs_roundRat_sub_le 4 angle
    have hhalf : 1 / (2 * (tenTo 4 : Nat) : Rat) = 5 / 100000 := by norm_num [tenTo]
    rw [hhalf] at hround
    exact hround
  rcases (round4_le hpos hlt).lt_or_eq with hbelow | hfull
  · refine ⟨0, ?_⟩
    rw [wrap_of_lt (round4_nonneg hpos) hbelow, Int.cast_zero, mul_zero, sub_zero]
    exact hnear
  · refine ⟨1, ?_⟩
    rw [hfull] at hnear
    rw [hfull, wrap_fullTurn, Int.cast_one, mul_one, sub_sub_eq_add_sub, zero_add]
    exact hnear

/-! ## Angles as numbers -/

/-- Whether a number is an angle from zero up to a full turn. -/
def IsAngle (angle : Binary64) : Prop :=
  ∃ magnitude, angle = .finite false magnitude ∧ magnitude.units ≤ 360 * unitsInOne

theorem representable_fullTurn : Representable (360 * unitsInOne) :=
  representable_mul_unitsInOne (by decide)

theorem isAngle_ofUnits {num den : Nat} (hden : 0 < den) (h : num ≤ 360 * unitsInOne * den) :
    IsAngle (ofUnits false num den) :=
  ofUnits_le false hden representable_fullTurn h

theorem fullTurn_eq : (360 : Binary64) = .finite false ⟨360 * unitsInOne, representable_fullTurn⟩ :=
  ofNat_of_le (n := 360) (by decide)

theorem isAngle_zero : IsAngle 0 := ⟨⟨0, representable_zero⟩, rfl, Nat.zero_le _⟩

theorem negative_add_finite {a b : Magnitude} (h : a.units ≤ b.units) :
    finite true a + finite false b = ofUnits false (b.units - a.units) 1 := by
  have htotal : signedUnits true a + signedUnits false b = (b.units - a.units : Nat) := by
    simp only [signedUnits, if_true, if_neg Bool.false_ne_true]
    omega
  change add (finite true a) (finite false b) = _
  rw [add, htotal]
  split
  · next hzero => rw [Int.natCast_eq_zero.mp hzero, Bool.and_false]
  · rw [Int.natAbs_natCast, decide_eq_false (by omega)]

/-- The remainder of a number below zero is rounded, perhaps up to a full turn. -/
theorem isAngle_wrap {angle : Binary64} (h : angle.isFinite = true) :
    IsAngle (Degrees.wrap angle) := by
  cases angle with
  | infinite _ | nan => exact Bool.noConfusion h
  | finite negative magnitude =>
      have hrest := Nat.le_of_lt (Nat.mod_lt magnitude.units
        (Nat.mul_pos (by decide : 0 < 360) unitsInOne_pos))
      rw [← Nat.mul_one (360 * unitsInOne)] at hrest
      obtain ⟨rest, heq, hle⟩ := ofUnits_le negative Nat.one_pos representable_fullTurn hrest
      rw [Nat.mul_one] at heq
      change IsAngle (modNat (.finite negative magnitude) 360)
      simp only [modNat, heq]
      split
      · exact isAngle_zero
      · cases negative with
        | false => exact ⟨rest, rfl, hle⟩
        | true =>
            rw [if_pos rfl, ofNat_of_le (n := 360) (by decide), negative_add_finite hle]
            apply isAngle_ofUnits Nat.one_pos
            rw [Nat.mul_one]
            exact Nat.sub_le _ _

theorem isAngle_round4 {angle : Binary64} (h : IsAngle angle) : IsAngle (Degrees.round4 angle) := by
  obtain ⟨magnitude, rfl, hle⟩ := h
  apply isAngle_ofUnits (tenTo_pos 4)
  rw [Nat.mul_right_comm]
  apply Nat.mul_le_mul_right
  apply roundHalfEven_le_of_le unitsInOne_pos
  rw [Nat.mul_right_comm]
  exact Nat.mul_le_mul_right _ hle

/-- An angle is wrapped without rounding. -/
theorem wrap_lt_of_isAngle {angle : Binary64} (h : IsAngle angle) :
    ∃ magnitude, Degrees.wrap angle = .finite false magnitude ∧
      magnitude.units < 360 * unitsInOne := by
  obtain ⟨magnitude, rfl, hle⟩ := h
  have hpos : 0 < 360 * unitsInOne := Nat.mul_pos (by decide) unitsInOne_pos
  change ∃ _, modNat (finite false magnitude) 360 = _ ∧ _
  rw [modNat]
  rcases Nat.lt_or_eq_of_le hle with hlt | hfull
  · rw [Nat.mod_eq_of_lt hlt, ofUnits_of_representable false magnitude.representable]
    split
    · exact ⟨⟨0, representable_zero⟩, rfl, hpos⟩
    · exact ⟨magnitude, rfl, hlt⟩
  · rw [hfull, Nat.mod_self, ofUnits_zero]
    exact ⟨⟨0, representable_zero⟩, rfl, hpos⟩

end Heading

open Heading

theorem headingOf_lt {angle : Binary64} (h : angle.isFinite = true) :
    (headingOf angle).lt 360 = true ∧ (headingOf angle).lt 0 = false := by
  have hvertical := isFinite_fromVertical (within_wrap h)
  obtain ⟨magnitude, heq, hlt⟩ := wrap_lt_of_isAngle (isAngle_round4 (isAngle_wrap hvertical))
  rw [headingOf_eq, unrounded, heq]
  constructor
  · rw [fullTurn_eq, lt]
    apply decide_eq_true
    exact Int.ofNat_lt.mpr hlt
  · apply Bool.eq_false_iff.mpr
    intro hneg
    exact Bool.noConfusion (finite_lt_zero_iff.mp hneg).1

/-- On numbers, too, a heading lies below a full turn. -/
theorem heading_lt {dx dy : Binary64} (hdx : dx.isNaN = false) (hdy : dy.isNaN = false) :
    (heading dx dy).lt 360 = true ∧ (heading dx dy).lt 0 = false := by
  unfold heading
  split
  · rw [fullTurn_eq]
    decide
  · have hdegrees := (within_radians hdx hdy).mul within_degreesPerRadian (l := 1090) rfl
      (by decide)
    exact headingOf_lt hdegrees.isFinite

/-- A heading lies below a full turn, and it is the heading asked for up to whole turns and half of
the fourth decimal.  An angle in the last half of a decimal below a full turn is rounded up to it,
and becomes zero. -/
theorem headingOf_wraps (angle : Rat) :
    (0 ≤ headingOf angle ∧ headingOf angle < 360) ∧
    (∃ turns : Int, |headingOf angle - (90 - angle - 360 * turns)| ≤ 5 / 100000) ∧
    (Degrees.round4 (unrounded angle) = 360 ↔ 360 - 1 / 20000 ≤ unrounded angle) ∧
    (Degrees.round4 (unrounded angle) = 360 → headingOf angle = 0) := by
  have hpos : 0 ≤ unrounded angle := wrap_nonneg _
  have hlt : unrounded angle < 360 := wrap_lt _
  refine ⟨⟨wrap_nonneg _, wrap_lt _⟩, ?_, round4_eq_fullTurn_iff hpos hlt, fun hfull ↦ ?_⟩
  · obtain ⟨before, hbefore⟩ := exists_unrounded_eq angle
    obtain ⟨after, hafter⟩ := exists_wrap_round4_near hpos hlt
    refine ⟨before + after, ?_⟩
    have hturns : unrounded angle - 360 * after = 90 - angle - 360 * (before + after : Int) := by
      rw [hbefore, sub_sub _ (360 * (before : Rat)), ← mul_add, Int.cast_add]
    rw [← hturns]
    exact hafter
  · rw [headingOf_eq, hfull, wrap_fullTurn]

/-- A hundred-thousandth of a degree past straight up. -/
theorem headingOf_wraps_up :
    Degrees.round4 (unrounded (9000001 / 100000 : Rat)) = 360 ∧
      headingOf (9000001 / 100000 : Rat) = 0 := by
  have hfull : Degrees.round4 (unrounded (9000001 / 100000 : Rat)) = 360 := by decide +kernel
  exact ⟨hfull, (headingOf_wraps _).2.2.2 hfull⟩

end DesignToWeb
