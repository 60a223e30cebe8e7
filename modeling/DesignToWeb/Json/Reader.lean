import DesignToWeb.Json.Basic
import DesignToWeb.Text.Character

/-!
# Reading JSON

The reader walks the characters of a text and stops at the first place where
the text is no JSON.  Besides the grammar it takes the words for the infinities
and NaN as numbers.  It also stops at a whole number of too many digits.
-/

namespace DesignToWeb.Json

/-- What is wrong at the place where reading stops. -/
inductive Problem where
  | noValue
  | noPropertyName
  | noColon
  | noComma
  | unterminatedString
  | controlCharacter
  | badEscape
  | badUnicodeEscape
  | extraData
  | byteOrderMark
  | tooManyDigits (count : Nat)
deriving DecidableEq

/-- A problem and the number of characters before it. -/
structure Stop where
  problem : Problem
  place : Nat

structure Cursor where
  rest : List Char
  place : Nat

namespace Cursor

def drop (c : Cursor) (n : Nat) : Cursor := ⟨c.rest.drop n, c.place + n⟩

def isBlank (c : Char) : Bool := c == ' ' || c == '\t' || c == '\n' || c == '\r'

def skipBlanks (c : Cursor) : Cursor := c.drop (c.rest.takeWhile isBlank).length

end Cursor

/-! ## Strings -/

def highSurrogate (n : Nat) : Bool := 0xd800 ≤ n && n < 0xdc00

def lowSurrogate (n : Nat) : Bool := 0xdc00 ≤ n && n < 0xe000

/-- The second half of a pair, if the characters continue with one. -/
def secondHalf? (place : Nat) : List Char → Except Stop (Option Nat)
  | '\\' :: 'u' :: rest =>
    if (rest.drop 4).isEmpty then .ok none
    else match Text.ofHex? (rest.take 4) with
      | none => .error ⟨.badUnicodeEscape, place + 1⟩
      | some n => .ok (if lowSurrogate n then some n else none)
  | _ => .ok none

/-- The character of a numeric escape and the length of the escape behind its letter.  A half
without its partner becomes the replacement character. -/
def numericEscape (place : Nat) (cs : List Char) : Except Stop (Char × Nat) := do
  if (cs.drop 4).isEmpty then throw ⟨.badUnicodeEscape, place⟩
  match Text.ofHex? (cs.take 4) with
  | none => throw ⟨.badUnicodeEscape, place⟩
  | some high =>
    if highSurrogate high then
      match ← secondHalf? (place + 5) (cs.drop 4) with
      | some low => return (Char.ofNat (0x10000 + (high - 0xd800) * 0x400 + (low - 0xdc00)), 10)
      | none => return ('\ufffd', 4)
    else if lowSurrogate high then return ('\ufffd', 4)
    else return (Char.ofNat high, 4)

/-- The character that an escape stands for and the length of the escape behind its backslash. -/
def escapeAt (start place : Nat) : List Char → Except Stop (Char × Nat)
  | [] => .error ⟨.unterminatedString, start⟩
  | '"' :: _ => .ok ('"', 1)
  | '\\' :: _ => .ok ('\\', 1)
  | '/' :: _ => .ok ('/', 1)
  | 'b' :: _ => .ok ('\x08', 1)
  | 'f' :: _ => .ok ('\x0c', 1)
  | 'n' :: _ => .ok ('\n', 1)
  | 'r' :: _ => .ok ('\r', 1)
  | 't' :: _ => .ok ('\t', 1)
  | 'u' :: rest => do
    let (c, used) ← numericEscape (place + 1) rest
    return (c, used + 1)
  | _ :: _ => .error ⟨.badEscape, place⟩

/-- The characters of a string up to its closing quote; `covered` characters in front belong to
an escape that has been read. -/
def stringBody (start : Nat) :
    List Char → Nat → Nat → List Char → Except Stop (String × Cursor)
  | [], _, _, _ => .error ⟨.unterminatedString, start⟩
  | _ :: rest, place, covered + 1, acc => stringBody start rest (place + 1) covered acc
  | c :: rest, place, 0, acc =>
    if c = '"' then .ok (String.ofList acc.reverse, ⟨rest, place + 1⟩)
    else if c = '\\' then do
      let (escaped, used) ← escapeAt start place rest
      stringBody start rest (place + 1) used (escaped :: acc)
    else if c.toNat < 0x20 then .error ⟨.controlCharacter, place⟩
    else stringBody start rest (place + 1) 0 (c :: acc)

/-- The string whose opening quote is the first character. -/
def readString (c : Cursor) : Except Stop (String × Cursor) :=
  stringBody c.place (c.rest.drop 1) (c.place + 1) 0 []

/-! ## Numbers and words -/

def isDigit (c : Char) : Bool := '0' ≤ c && c ≤ '9'

/-- The digits of the whole part: a zero alone, or digits that begin with another one. -/
def wholeDigits (cs : List Char) : List Char :=
  match cs with
  | '0' :: _ => ['0']
  | _ => cs.takeWhile isDigit

/-- The fraction behind a point; without a digit there is none. -/
def fractionDigits : List Char → List Char
  | '.' :: rest => rest.takeWhile isDigit
  | _ => []

/-- The exponent and its length; without a digit there is none. -/
def exponentPart : List Char → Option (Int × Nat)
  | letter :: rest =>
    if letter = 'e' || letter = 'E' then
      let (negative, signLength, tail) := match rest with
        | '-' :: tail => (true, 1, tail)
        | '+' :: tail => (false, 1, tail)
        | tail => (false, 0, tail)
      let ds := tail.takeWhile isDigit
      if ds.isEmpty then none
      else
        let n : Int := Text.digitsValue ds
        some (if negative then -n else n, 1 + signLength + ds.length)
    else none
  | [] => none

def numberAt (cs : List Char) : Except Problem (Json × Nat) :=
  let negative := cs.head? == some '-'
  let signLength := if negative then 1 else 0
  let body := cs.drop signLength
  let whole := wholeDigits body
  if whole.isEmpty then .error .noValue
  else
    let afterWhole := body.drop whole.length
    let fraction := fractionDigits afterWhole
    let fractionLength := if fraction.isEmpty then 0 else fraction.length + 1
    let length := signLength + whole.length + fractionLength
    match exponentPart (afterWhole.drop fractionLength), fraction with
    | none, [] =>
      if Text.maxWholeDigits < whole.length then .error (.tooManyDigits whole.length)
      else
        let n : Int := Text.digitsValue whole
        .ok (int (if negative then -n else n), length)
    | none, _ =>
      .ok (float (.ofDecimal negative (Text.digitsValue (whole ++ fraction))
        (-(fraction.length : Int))), length)
    | some (exponent, exponentLength), _ =>
      .ok (float (.ofDecimal negative (Text.digitsValue (whole ++ fraction))
        (exponent - fraction.length)), length + exponentLength)

def words : List (String × Json) := [
  ("null", null), ("true", bool true), ("false", bool false), ("NaN", nan),
  ("Infinity", float (.infinite false)), ("-Infinity", float (.infinite true))]

def scalarAt (cs : List Char) : Except Problem (Json × Nat) :=
  match words.find? fun word ↦ word.1.toList.isPrefixOf cs with
  | some (word, j) => .ok (j, word.length)
  | none => numberAt cs

/-! ## Values -/

mutual

/-- The value at a place.  `depth` bounds the calls; each pair of them takes a character. -/
def readValue : Nat → Cursor → Except Stop (Json × Cursor)
  | 0, c => .error ⟨.noValue, c.place⟩
  | depth + 1, c =>
    match c.rest with
    | '"' :: _ => do
      let (s, c) ← readString c
      return (str s, c)
    | '[' :: _ =>
      let c := (c.drop 1).skipBlanks
      match c.rest with
      | ']' :: _ => .ok (arr [], c.drop 1)
      | _ => readItems depth c []
    | '\x7b' :: _ =>
      let c := (c.drop 1).skipBlanks
      match c.rest with
      | '\x7d' :: _ => .ok (obj [], c.drop 1)
      | _ => readFields depth c []
    | cs =>
      match scalarAt cs with
      | .ok (j, length) => .ok (j, c.drop length)
      | .error problem => .error ⟨problem, c.place⟩

def readItems : Nat → Cursor → List Json → Except Stop (Json × Cursor)
  | 0, c, _ => .error ⟨.noValue, c.place⟩
  | depth + 1, c, acc => do
    let (item, c) ← readValue depth c
    let c := c.skipBlanks
    match c.rest with
    | ']' :: _ => return (arr (item :: acc).reverse, c.drop 1)
    | ',' :: _ => readItems depth (c.drop 1).skipBlanks (item :: acc)
    | _ => throw ⟨.noComma, c.place⟩

/-- The fields of an object from one of them on. -/
def readFields : Nat → Cursor → List (String × Json) → Except Stop (Json × Cursor)
  | 0, c, _ => .error ⟨.noValue, c.place⟩
  | depth + 1, c, acc => do
    if c.rest.head? ≠ some '"' then throw ⟨.noPropertyName, c.place⟩
    let (key, c) ← readString c
    let c := c.skipBlanks
    if c.rest.head? ≠ some ':' then throw ⟨.noColon, c.place⟩
    let (value, c) ← readValue depth (c.drop 1).skipBlanks
    let c := c.skipBlanks
    match c.rest with
    | '\x7d' :: _ =>
      return (obj (Attributes.ofFields ((key, value) :: acc).reverse).fields, c.drop 1)
    | ',' :: _ => readFields depth (c.drop 1).skipBlanks ((key, value) :: acc)
    | _ => throw ⟨.noComma, c.place⟩

end

def readAll (cs : List Char) : Except Stop Json := do
  if cs.head? = some '\ufeff' then throw ⟨.byteOrderMark, 0⟩
  let (j, c) ← readValue (2 * cs.length + 2) (Cursor.skipBlanks ⟨cs, 0⟩)
  let c := c.skipBlanks
  if c.rest.isEmpty then return j else throw ⟨.extraData, c.place⟩

/-! ## Errors -/

/-- Where and why a text is no JSON; lines and columns count from one. -/
structure ReadError where
  problem : Problem
  line : Nat
  column : Nat
  place : Nat

def Problem.message : Problem → String
  | noValue => "Expecting value"
  | noPropertyName => "Expecting property name enclosed in double quotes"
  | noColon => "Expecting ':' delimiter"
  | noComma => "Expecting ',' delimiter"
  | unterminatedString => "Unterminated string starting at"
  | controlCharacter => "Invalid control character at"
  | badEscape => "Invalid \\escape"
  | badUnicodeEscape => "Invalid \\uXXXX escape"
  | extraData => "Extra data"
  | byteOrderMark => "Unexpected UTF-8 BOM (decode using utf-8-sig)"
  | tooManyDigits count =>
    "Exceeds the limit (" ++ toString Text.maxWholeDigits ++
      " digits) for integer string conversion: value has " ++ toString count ++
      " digits; use sys.set_int_max_str_digits() to increase the limit"

/-- Whether the text itself is wrong, so that the place is told; digits are only too many. -/
def Problem.isMalformed : Problem → Bool
  | tooManyDigits _ => false
  | _ => true

def Stop.locate (stop : Stop) (cs : List Char) : ReadError :=
  let before := cs.take stop.place
  { problem := stop.problem
    line := before.count '\n' + 1
    column := (before.reverse.takeWhile (· ≠ '\n')).length + 1
    place := stop.place }

def ReadError.message (e : ReadError) : String :=
  if e.problem.isMalformed then
    e.problem.message ++ ": line " ++ toString e.line ++ " column " ++ toString e.column ++
      " (char " ++ toString e.place ++ ")"
  else e.problem.message

def read (s : String) : Except ReadError Json :=
  match readAll s.toList with
  | .ok j => .ok j
  | .error stop => .error (stop.locate s.toList)

end DesignToWeb.Json
