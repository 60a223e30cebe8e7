/-!
# Characters

The blank characters of Unicode, and the removal of blanks from both ends of a
text; the decimal digits of Unicode, which come in runs of ten, from zero to
nine; and hexadecimal digits.
-/

namespace DesignToWeb.Text

/-! ## Blanks -/

/-- Tab to carriage return, the four separators `0x1c` to `0x1f`, the space, the next-line
character and every space, line and paragraph separator of Unicode. -/
def isBlank (c : Char) : Bool :=
  let n := c.toNat
  (0x9 ≤ n && n ≤ 0xd) || (0x1c ≤ n && n ≤ 0x20) || n == 0x85 || n == 0xa0 || n == 0x1680 ||
    (0x2000 ≤ n && n ≤ 0x200a) || n == 0x2028 || n == 0x2029 || n == 0x202f || n == 0x205f ||
    n == 0x3000

def trimWhile (blank : Char → Bool) (cs : List Char) : List Char :=
  ((cs.dropWhile blank).reverse.dropWhile blank).reverse

def trim (s : String) : String := String.ofList (trimWhile isBlank s.toList)

/-- ASCII capitals become small letters; every other character stays. -/
def lowerAscii (s : String) : String := String.ofList (s.toList.map Char.toLower)

/-! ## Decimal digits -/

def decimalZeros : List Nat := [
  0x30, 0x660, 0x6f0, 0x7c0, 0x966, 0x9e6, 0xa66, 0xae6, 0xb66, 0xbe6, 0xc66, 0xce6, 0xd66,
  0xde6, 0xe50, 0xed0, 0xf20, 0x1040, 0x1090, 0x17e0, 0x1810, 0x1946, 0x19d0, 0x1a80, 0x1a90,
  0x1b50, 0x1bb0, 0x1c40, 0x1c50, 0xa620, 0xa8d0, 0xa900, 0xa9d0, 0xa9f0, 0xaa50, 0xabf0,
  0xff10, 0x104a0, 0x10d30, 0x11066, 0x110f0, 0x11136, 0x111d0, 0x112f0, 0x11450, 0x114d0,
  0x11650, 0x116c0, 0x11730, 0x118e0, 0x11950, 0x11c50, 0x11d50, 0x11da0, 0x16a60, 0x16ac0,
  0x16b50, 0x1d7ce, 0x1d7d8, 0x1d7e2, 0x1d7ec, 0x1d7f6, 0x1e140, 0x1e2f0, 0x1e950, 0x1fbf0]

def digitValue? (c : Char) : Option Nat :=
  decimalZeros.findSome? fun start ↦
    if start ≤ c.toNat && c.toNat < start + 10 then some (c.toNat - start) else none

def isDecimalDigit (c : Char) : Bool := (digitValue? c).isSome

/-- The number that a string of digits writes; characters that are no digits count as zero. -/
def digitsValue (cs : List Char) : Nat :=
  cs.foldl (fun n c ↦ 10 * n + (digitValue? c).getD 0) 0

/-- The most digits that a whole number may be written with, zeros in front included. -/
def maxWholeDigits : Nat := 4300

/-! ## Hexadecimal digits -/

def hexDigit (n : Nat) : Char := Nat.digitChar (n % 16)

/-- The last `width` hexadecimal digits of a number, in small letters. -/
def hex (width n : Nat) : List Char :=
  match width with
  | 0 => []
  | width + 1 => hex width (n / 16) ++ [hexDigit n]

def hexValue? (c : Char) : Option Nat :=
  if '0' ≤ c ∧ c ≤ '9' then some (c.toNat - '0'.toNat)
  else if 'a' ≤ c ∧ c ≤ 'f' then some (c.toNat - 'a'.toNat + 10)
  else if 'A' ≤ c ∧ c ≤ 'F' then some (c.toNat - 'A'.toNat + 10)
  else none

def ofHex? (cs : List Char) : Option Nat :=
  cs.foldl (fun acc c ↦ do return 16 * (← acc) + (← hexValue? c)) (some 0)

end DesignToWeb.Text
