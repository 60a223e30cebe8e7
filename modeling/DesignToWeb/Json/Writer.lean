import DesignToWeb.Binary64.Shortest
import DesignToWeb.Json.Basic
import DesignToWeb.Text.Character

/-!
# Writing JSON

A value becomes JSON text either on one line or indented, and either with all
characters as they are or with ASCII alone.
-/

namespace DesignToWeb.Json

structure WriteStyle where
  /-- The width of one step of indentation; on one line without it. -/
  indent : Option Nat
  /-- Whether characters outside ASCII are escaped. -/
  asciiOnly : Bool

namespace WriteStyle

def compact : WriteStyle := ⟨none, true⟩

def indented : WriteStyle := ⟨some 2, false⟩

def lineBreak (style : WriteStyle) (depth : Nat) : String :=
  match style.indent with
  | none => ""
  | some width => String.ofList ('\n' :: List.replicate (width * depth) ' ')

def separator (style : WriteStyle) (depth : Nat) : String :=
  match style.indent with
  | none => ", "
  | some _ => "," ++ style.lineBreak depth

end WriteStyle

def unicodeEscape (n : Nat) : List Char := '\\' :: 'u' :: Text.hex 4 n

/-- The escapes of the two halves in which a character beyond `0xffff` is written. -/
def pairEscape (n : Nat) : List Char :=
  unicodeEscape (0xd800 + (n - 0x10000) / 0x400) ++ unicodeEscape (0xdc00 + (n - 0x10000) % 0x400)

def escapeChar (asciiOnly : Bool) (c : Char) : List Char :=
  if c = '"' then ['\\', '"']
  else if c = '\\' then ['\\', '\\']
  else if c = '\n' then ['\\', 'n']
  else if c = '\r' then ['\\', 'r']
  else if c = '\t' then ['\\', 't']
  else if c = '\x08' then ['\\', 'b']
  else if c = '\x0c' then ['\\', 'f']
  else if c.toNat < 0x20 || (asciiOnly && 0x7f ≤ c.toNat && c.toNat < 0x10000) then
    unicodeEscape c.toNat
  else if asciiOnly && 0x10000 ≤ c.toNat then pairEscape c.toNat
  else [c]

def writeString (asciiOnly : Bool) (s : String) : String :=
  String.ofList ('"' :: s.toList.flatMap (escapeChar asciiOnly) ++ ['"'])

def writeFloat : Binary64 → String
  | .infinite negative => if negative then "-Infinity" else "Infinity"
  | .nan => "NaN"
  | x => x.text

mutual

def writeAt (style : WriteStyle) (depth : Nat) : Json → String
  | null => "null"
  | bool b => if b then "true" else "false"
  | int n => toString n
  | float x => writeFloat x
  | nan => writeFloat .nan
  | str s => writeString style.asciiOnly s
  | arr [] => "[]"
  | arr (item :: rest) =>
    "[" ++ style.lineBreak (depth + 1) ++ writeAt style (depth + 1) item ++
      writeItems style (depth + 1) rest ++ style.lineBreak depth ++ "]"
  | obj [] => "\x7b\x7d"
  | obj ((key, value) :: rest) =>
    "\x7b" ++ style.lineBreak (depth + 1) ++ writeString style.asciiOnly key ++ ": " ++
      writeAt style (depth + 1) value ++ writeFields style (depth + 1) rest ++
      style.lineBreak depth ++ "\x7d"

/-- The items after the first, each behind a separator. -/
def writeItems (style : WriteStyle) (depth : Nat) : List Json → String
  | [] => ""
  | item :: rest => style.separator depth ++ writeAt style depth item ++ writeItems style depth rest

/-- The fields after the first, each behind a separator. -/
def writeFields (style : WriteStyle) (depth : Nat) : List (String × Json) → String
  | [] => ""
  | (key, value) :: rest =>
    style.separator depth ++ writeString style.asciiOnly key ++ ": " ++
      writeAt style depth value ++ writeFields style depth rest

end

def write (style : WriteStyle) (j : Json) : String := writeAt style 0 j

end DesignToWeb.Json
