import DesignToWeb.Binary64.Bits

/-!
# Binary64 numbers

The floating-point numbers that a design is measured in.  Every operation is
exact integer arithmetic on units of `2 ^ -1074`, followed by one rounding,
`ofUnits`.
-/

namespace DesignToWeb

/-- The quotient `num / den` rounded to a whole number, a half going to the even neighbour. -/
def roundHalfEven (num den : Nat) : Nat :=
  let twice := 2 * (num % den)
  if den < twice ∨ (twice = den ∧ num / den % 2 = 1) then num / den + 1 else num / den

theorem roundHalfEven_le (num den : Nat) : roundHalfEven num den ≤ num / den + 1 := by
  unfold roundHalfEven
  dsimp only
  split
  · exact Nat.le_refl _
  · exact Nat.le_succ _

theorem le_roundHalfEven (num den : Nat) : num / den ≤ roundHalfEven num den := by
  unfold roundHalfEven
  dsimp only
  split
  · exact Nat.le_succ _
  · exact Nat.le_refl _

def tenTo (n : Nat) : Nat := Nat.pow 10 n

namespace Binary64

theorem roundHalfEven_excess_le (num den : Nat) :
    roundHalfEven num (den <<< excess (num / den)) ≤ 1 <<< 53 := by
  refine Nat.le_trans (roundHalfEven_le _ _) ?_
  rw [Nat.shiftLeft_eq, ← Nat.div_div_eq_div_mul]
  refine Nat.succ_le_of_lt (Nat.div_lt_of_lt_mul ?_)
  rw [Nat.shiftLeft_eq, Nat.one_mul, ← Nat.pow_add]
  refine Nat.lt_of_lt_of_le Nat.lt_log2_self (Nat.pow_le_pow_right (by decide) ?_)
  unfold excess
  omega

/-- The number nearest to `num / den` units with the given sign.  A half goes to the even
significand, and what reaches `2 ^ 1024` is infinite. -/
def ofUnits (negative : Bool) (num den : Nat) : Binary64 :=
  let shift := excess (num / den)
  let significand := roundHalfEven num (den <<< shift)
  if h : significand <<< shift < unitsLimit then
    finite negative ⟨significand <<< shift,
      representable_of_le (roundHalfEven_excess_le num den) h⟩
  else
    infinite negative

def ofRatio (negative : Bool) (num den : Nat) : Binary64 :=
  ofUnits negative (num * unitsInOne) den

def ofInt (n : Int) : Binary64 := ofRatio (n < 0) n.natAbs 1

def ofNat (n : Nat) : Binary64 := ofRatio false n 1

/-- The number nearest to `digits * 10 ^ exponent`.  Exponents that lead out of the range for
every digit string of that length are answered without computing the power. -/
def ofDecimal (negative : Bool) (digits : Nat) (exponent : Int) : Binary64 :=
  if digits = 0 then ofUnits negative 0 1
  else if 400 < exponent then infinite negative
  else if exponent + digits.log2 < -400 then ofUnits negative 0 1
  else if 0 ≤ exponent then ofRatio negative (digits * tenTo exponent.toNat) 1
  else ofRatio negative digits (tenTo (-exponent).toNat)

instance (n : Nat) : OfNat Binary64 n := ⟨ofNat n⟩

def signedUnits (negative : Bool) (magnitude : Magnitude) : Int :=
  if negative then -magnitude.units else magnitude.units

def isFinite : Binary64 → Bool
  | finite _ _ => true
  | _ => false

def isZero : Binary64 → Bool
  | finite _ magnitude => magnitude.units == 0
  | _ => false

def isNaN : Binary64 → Bool
  | nan => true
  | _ => false

def neg : Binary64 → Binary64
  | finite negative magnitude => finite (!negative) magnitude
  | infinite negative => infinite (!negative)
  | nan => nan

def abs : Binary64 → Binary64
  | finite _ magnitude => finite false magnitude
  | infinite _ => infinite false
  | nan => nan

/-- The nearest number to the sum; an exact zero is negative only if both summands are. -/
def add : Binary64 → Binary64 → Binary64
  | finite s a, finite t b =>
    let total := signedUnits s a + signedUnits t b
    if total = 0 then ofUnits (s && t) 0 1 else ofUnits (total < 0) total.natAbs 1
  | infinite s, infinite t => if s = t then infinite s else nan
  | infinite s, finite _ _ => infinite s
  | finite _ _, infinite t => infinite t
  | nan, _ => nan
  | _, nan => nan

def mul : Binary64 → Binary64 → Binary64
  | finite s a, finite t b => ofUnits (s != t) (a.units * b.units) unitsInOne
  | infinite s, infinite t => infinite (s != t)
  | infinite s, finite t b => if b.units = 0 then nan else infinite (s != t)
  | finite s a, infinite t => if a.units = 0 then nan else infinite (s != t)
  | nan, _ => nan
  | _, nan => nan

instance : Neg Binary64 := ⟨neg⟩
instance : Add Binary64 := ⟨add⟩
instance : Sub Binary64 := ⟨fun x y ↦ add x (neg y)⟩
instance : Mul Binary64 := ⟨mul⟩

/-- The nearest number to the quotient by a positive whole number. -/
def divNat (x : Binary64) (divisor : Nat) : Binary64 :=
  match x with
  | finite s a => ofUnits s a.units divisor
  | infinite s => infinite s
  | nan => nan

/-- The remainder on division by a positive whole number, with the sign of the divisor: the exact
remainder of the truncated division, raised by the divisor when it is negative. -/
def modNat (x : Binary64) (divisor : Nat) : Binary64 :=
  match x with
  | finite s a =>
    let rest := ofUnits s (a.units % (divisor * unitsInOne)) 1
    if rest.isZero then 0 else if s then rest + ofNat divisor else rest
  | _ => nan

/-- Where a number lies in the order: its signed units, the infinities beyond all of them. -/
def position : Binary64 → Option Int
  | finite negative magnitude => some (signedUnits negative magnitude)
  | infinite negative => some (if negative then -(unitsLimit : Int) else unitsLimit)
  | nan => none

def lt (x y : Binary64) : Bool :=
  match x.position, y.position with
  | some a, some b => a < b
  | _, _ => false

/-- Equality as numbers: the two zeros are equal, and NaN equals nothing. -/
def sameNumber (x y : Binary64) : Bool :=
  match x.position, y.position with
  | some a, some b => a == b
  | _, _ => false

/-- The number held within `[0, 1]`; a negative zero and what lies below become zero, NaN and what
lies above become one. -/
def clampUnit (x : Binary64) : Binary64 :=
  let upper := if lt x 1 then x else 1
  if lt 0 upper then upper else 0

/-- The number without its fraction; `none` for what is not finite. -/
def truncate? : Binary64 → Option Int
  | finite negative magnitude =>
    let whole : Int := magnitude.units / unitsInOne
    some (if negative then -whole else whole)
  | _ => none

def isWhole : Binary64 → Bool
  | finite _ magnitude => magnitude.units % unitsInOne == 0
  | _ => false

/-- The whole number that the number is. -/
def whole? (x : Binary64) : Option Int := if x.isWhole then x.truncate? else none

/-- The nearest number to the exact value rounded to so many decimals, a half going to the even
neighbour. -/
def roundPlaces (places : Nat) (x : Binary64) : Binary64 :=
  match x with
  | finite negative magnitude =>
    ofRatio negative (roundHalfEven (magnitude.units * tenTo places) unitsInOne) (tenTo places)
  | other => other

def finiteOr (x fallback : Binary64) : Binary64 :=
  if x.isFinite then x else fallback

end Binary64
end DesignToWeb
