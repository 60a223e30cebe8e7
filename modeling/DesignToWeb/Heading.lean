import DesignToWeb.Binary64.Basic

/-!
# Headings

A gradient runs along a vector of the design, and its heading is the angle of
that vector in degrees, measured clockwise from straight up.  The arithmetic of
degrees is a parameter, so that the same formula runs on binary64 numbers and
on rationals.
-/

namespace DesignToWeb

/-- The steps of degree arithmetic that a heading is computed with. -/
class Degrees (α : Type) where
  /-- The angle brought into one full turn, from zero up to 360. -/
  wrap : α → α
  /-- The angle from straight up instead of from the horizontal, in the other sense. -/
  fromVertical : α → α
  /-- The angle rounded to four decimals. -/
  round4 : α → α

/-- The heading of a direction whose angle from the horizontal is given, counterclockwise. -/
def headingOf {α : Type} [Degrees α] (angle : α) : α :=
  Degrees.wrap (Degrees.round4 (Degrees.wrap (Degrees.fromVertical (Degrees.wrap angle))))

instance : Degrees Binary64 where
  wrap x := x.modNat 360
  fromVertical x := 90 - x
  round4 x := x.roundPlaces 4

/-- The rational number with so many decimals that is nearest, a half going to the even one. -/
def roundRat (places : Nat) (q : Rat) : Rat :=
  let whole := roundHalfEven (q.num.natAbs * tenTo places) q.den
  mkRat (if q.num < 0 then -whole else whole) (tenTo places)

instance : Degrees Rat where
  wrap q := q - 360 * (q / 360).floor
  fromVertical q := 90 - q
  round4 q := roundRat 4 q

namespace Heading

/-- Angles are summed in units of `2 ^ -192`. -/
def precision : Nat := 1 <<< 192

/-- The arctangent of `num / den`, for a ratio of at most one, in units of `1 / precision`.
Euler's series: the terms fall by at least half, so the sum is exact to the last few units. -/
def arctangent (num den : Nat) : Nat :=
  let square := num * num + den * den
  let first := precision * num * den / square
  let step := fun (state : Nat × Nat) (n : Nat) ↦
    let term := state.2 * ((2 * n + 2) * (num * num)) / ((2 * n + 3) * square)
    (state.1 + term, term)
  ((List.range 200).foldl step (first, first)).1

def halfTurn : Nat := 4 * arctangent 1 1

/-- The angle between the horizontal and a vector in the first quadrant. -/
def quadrantAngle (across up : Nat) : Nat :=
  if up ≤ across then arctangent up across
  else halfTurn / 2 - arctangent across up

/-- The lengths of two components in a common unit.  Beside an infinite one a finite one is
nothing. -/
def lengths : Binary64 → Binary64 → Option (Nat × Nat)
  | .finite _ a, .finite _ b => some (a.units, b.units)
  | .infinite _, .finite _ _ => some (1, 0)
  | .finite _ _, .infinite _ => some (0, 1)
  | .infinite _, .infinite _ => some (1, 1)
  | _, _ => none

def isNegative : Binary64 → Bool
  | .finite negative _ => negative
  | .infinite negative => negative
  | .nan => false

def radians (dx dy : Binary64) : Binary64 :=
  match lengths dx dy with
  | none => .nan
  | some (across, up) =>
    let angle := quadrantAngle across up
    .ofRatio (isNegative dy) (if isNegative dx then halfTurn - angle else angle) precision

/-- The number nearest to `180 / π`. -/
def degreesPerRadian : Binary64 := .ofDecimal false 5729577951308232 (-14)

/-- Components below this length in both directions give no direction. -/
def threshold : Binary64 := .ofDecimal false 1 (-9)

end Heading

def heading (dx dy : Binary64) : Binary64 :=
  if dx.abs.lt Heading.threshold && dy.abs.lt Heading.threshold then 0
  else headingOf (Heading.radians dx dy * Heading.degreesPerRadian)

end DesignToWeb
