import DesignToWeb.Binary64.Basic

/-!
# Shortest decimals

The text of a number has the fewest digits that read back as the number.  For
one digit, two digits, and so on, the grid points next to the number are read
back exactly; the first grid with a hit wins, and of its hits the nearest.
-/

namespace DesignToWeb

/-- A nonnegative decimal fraction `coefficient * 10 ^ exponent`. -/
structure Decimal where
  coefficient : Nat
  exponent : Int
deriving DecidableEq

namespace Decimal

def digits (n : Nat) : List Char := Nat.toDigits 10 n

/-- The digits of a decimal without the zeros at their end, and the place of the decimal point,
counted from the left of the digits. -/
def significant (d : Decimal) : List Char × Int :=
  let all := digits d.coefficient
  ((all.reverse.dropWhile (· = '0')).reverse, all.length + d.exponent)

/-- Which decimals are written without an exponent: those from `10 ^ -4` up to `10 ^ 16`. -/
def isPositional (point : Int) : Bool := -4 < point && point ≤ 16

/-- Digits with the point at its place; there is a digit on both sides of the point. -/
def positional (ds : List Char) (point : Int) : List Char :=
  if point ≤ 0 then '0' :: '.' :: (List.replicate (-point).toNat '0' ++ ds)
  else if ds.length ≤ point.toNat then
    ds ++ List.replicate (point.toNat - ds.length) '0' ++ ['.', '0']
  else ds.take point.toNat ++ '.' :: ds.drop point.toNat

/-- One digit before the point, and an exponent with a sign and at least two digits. -/
def scientific (ds : List Char) (point : Int) : List Char :=
  let exponent := point - 1
  let magnitude := digits exponent.natAbs
  ds.take 1 ++ (if ds.length ≤ 1 then [] else '.' :: ds.drop 1) ++
    ['e', if exponent < 0 then '-' else '+'] ++
    (if magnitude.length < 2 then '0' :: magnitude else magnitude)

def text (d : Decimal) : List Char :=
  let (ds, point) := d.significant
  if isPositional point then positional ds point else scientific ds point

end Decimal

namespace Magnitude

/-- The number of digits before the decimal point, counted below zero when the fraction begins
with zeros. -/
def leadingPlace (m : Magnitude) : Int :=
  let whole := m.units / unitsInOne
  if whole = 0 then 1 - (Decimal.digits ((unitsInOne - 1) / m.units)).length
  else (Decimal.digits whole).length

/-- The points of the grid with so many digits that lie next to a magnitude, the nearest first. -/
def neighbours (m : Magnitude) (count : Nat) : List Decimal :=
  let exponent := m.leadingPlace - count
  let num := m.units * tenTo (-exponent).toNat
  let den := unitsInOne * tenTo exponent.toNat
  [roundHalfEven num den, num / den, num / den + 1].map (⟨·, exponent⟩)

def readsBack (m : Magnitude) (d : Decimal) : Bool :=
  Binary64.ofDecimal false d.coefficient d.exponent == .finite false m

/-- The shortest decimal that reads back as the magnitude.  The magnitude's own finite expansion
stands behind the grids of up to seventeen digits. -/
def shortest (m : Magnitude) : Decimal :=
  ((List.range 17).findSome? fun i ↦ (m.neighbours (i + 1)).find? m.readsBack).getD
    ⟨m.units * Nat.pow 5 1074, -1074⟩

end Magnitude

namespace Binary64

def magnitudeText (m : Magnitude) : List Char :=
  if m.units = 0 then ['0', '.', '0'] else m.shortest.text

def text : Binary64 → String
  | finite negative magnitude =>
    String.ofList ((if negative then ['-'] else []) ++ magnitudeText magnitude)
  | infinite negative => if negative then "-inf" else "inf"
  | nan => "nan"

end Binary64
end DesignToWeb
