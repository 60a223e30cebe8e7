/-!
# The format of numbers

A finite number is a sign and a whole number of units of `2 ^ -1074`.  The two
zeros are told apart by their sign; there is one NaN.  In the interchange format
a number is a sign bit, eleven bits of exponent and 52 bits of fraction.  A
magnitude of `f * 2 ^ s` units, with `s` its excess of bits, has the pattern
`s * 2 ^ 52 + f`; below `2 ^ 53` units the excess is zero.
-/

namespace DesignToWeb

/-! ## Units -/

def unitsInOne : Nat := 1 <<< 1074

/-- The units in `2 ^ 1024`, where the finite numbers end. -/
def unitsLimit : Nat := 1 <<< 2098

theorem one_shiftLeft_pos (n : Nat) : 0 < 1 <<< n := by
  rw [Nat.shiftLeft_eq, Nat.one_mul]
  exact Nat.two_pow_pos n

theorem unitsInOne_pos : 0 < unitsInOne := one_shiftLeft_pos 1074

theorem unitsLimit_pos : 0 < unitsLimit := one_shiftLeft_pos 2098

/-- Whole numbers of units of `2 ^ -1074` that a finite number can have: at most 53 significant
bits, and below `2 ^ 1024`. -/
def Representable (units : Nat) : Prop :=
  units < unitsLimit ∧
    ∃ significand shift, significand < 1 <<< 53 ∧ units = significand <<< shift

theorem representable_of_le {significand shift : Nat} (hle : significand ≤ 1 <<< 53)
    (hlt : significand <<< shift < unitsLimit) : Representable (significand <<< shift) := by
  refine ⟨hlt, ?_⟩
  rcases Nat.lt_or_eq_of_le hle with h | h
  · exact ⟨significand, shift, h, rfl⟩
  · refine ⟨1 <<< 52, 1 + shift, by decide, ?_⟩
    rw [h, Nat.shiftLeft_add]
    rfl

theorem representable_zero : Representable 0 :=
  ⟨unitsLimit_pos, 0, 0, by decide, by simp⟩

/-! ## Numbers -/

structure Magnitude where
  units : Nat
  representable : Representable units
deriving DecidableEq

instance : Inhabited Magnitude := ⟨⟨0, representable_zero⟩⟩

inductive Binary64 where
  | finite (negative : Bool) (magnitude : Magnitude)
  | infinite (negative : Bool)
  | nan
deriving DecidableEq, Inhabited

namespace Binary64

/-- The excess of bits over 53 in the whole part of a quotient. -/
def excess (quotient : Nat) : Nat := quotient.log2 - 52

/-- The sixty-four bits of a number, read as a natural number. -/
def toBits : Binary64 → Nat
  | finite negative magnitude =>
    let shift := excess magnitude.units
    (if negative then 1 <<< 63 else 0) + shift <<< 52 + magnitude.units >>> shift
  | infinite negative => (if negative then 1 <<< 63 else 0) + 2047 <<< 52
  | nan => 2047 <<< 52 + 1 <<< 51

end Binary64
end DesignToWeb
