import DesignToWeb.Binary64.Basic
import DesignToWeb.Text.Character

/-!
# Numerals

How a number is read from a text that a person wrote: blanks around it, a sign,
digits of any script, and a single underscore between two digits.
-/

namespace DesignToWeb.Text

/-- The blanks that may surround a numeral: all but the separators `0x1c` to `0x1f`. -/
def isNumeralBlank (c : Char) : Bool :=
  isBlank c && !(0x1c ≤ c.toNat && c.toNat ≤ 0x1f)

/-- Every underscore stands between two digits. -/
def separatorsWellPlaced (afterDigit : Bool) : List Char → Bool
  | [] => true
  | '_' :: rest =>
    afterDigit && (rest.head?.map isDecimalDigit).getD false && separatorsWellPlaced false rest
  | c :: rest => separatorsWellPlaced (isDecimalDigit c) rest

/-- The characters of a numeral without surrounding blanks and without its separators, if these
are well placed. -/
def numeralBody? (s : String) : Option (List Char) :=
  let cs := trimWhile isNumeralBlank s.toList
  if separatorsWellPlaced false cs then some (cs.filter (· ≠ '_')) else none

/-- Whether a minus sign leads, and what follows the sign. -/
def splitSign : List Char → Bool × List Char
  | '-' :: rest => (true, rest)
  | '+' :: rest => (false, rest)
  | cs => (false, cs)

/-- The whole number that a nonempty string of digits writes. -/
def digitString? (cs : List Char) : Option Nat :=
  if !cs.isEmpty && cs.all isDecimalDigit then some (digitsValue cs) else none

/-- The exponent at the end of a decimal: nothing, or the letter with a signed whole number. -/
def exponent? : List Char → Option Int
  | [] => some 0
  | c :: rest =>
    if c = 'e' || c = 'E' then
      let (negative, ds) := splitSign rest
      (digitString? ds).map fun n ↦ if negative then -(n : Int) else n
    else none

/-- An unsigned decimal: digits with at most one point among them, and an exponent. -/
def decimal? (negative : Bool) (cs : List Char) : Option Binary64 :=
  let whole := cs.takeWhile isDecimalDigit
  let rest := cs.dropWhile isDecimalDigit
  let (fraction, rest) := match rest with
    | '.' :: tail => (tail.takeWhile isDecimalDigit, tail.dropWhile isDecimalDigit)
    | other => ([], other)
  if whole.isEmpty && fraction.isEmpty then none
  else (exponent? rest).map fun e ↦
    .ofDecimal negative (digitsValue (whole ++ fraction)) (e - fraction.length)

/-- The number that a text writes: a decimal, an infinity or NaN, the words in any case. -/
def number? (s : String) : Option Binary64 := do
  let (negative, cs) := splitSign (← numeralBody? s)
  match String.ofList (cs.map Char.toLower) with
  | "inf" => some (.infinite negative)
  | "infinity" => some (.infinite negative)
  | "nan" => some .nan
  | _ => decimal? negative cs

/-- The whole number that a text writes with not too many digits. -/
def wholeNumber? (s : String) : Option Int := do
  let (negative, cs) := splitSign (← numeralBody? s)
  guard (cs.length ≤ maxWholeDigits)
  let n ← digitString? cs
  return if negative then -(n : Int) else n

end DesignToWeb.Text
