import DesignToWeb.Design.Reading
import DesignToWeb.Element
import DesignToWeb.Json.Label

/-!
# Type and text of a design

A text has one base typography.  Stretches of it may override fields of the
base; they are given by a key for every UTF-16 code unit of the text and a
table of overrides by key.
-/

namespace DesignToWeb.Design

/-- An optional number that a missing field takes from the base.  Null means none. -/
def readOverride (field : Option Json) (base : Option Binary64) :
    Except Fault (Option Binary64) :=
  match field with
  | none => .ok (base.map (·.finiteOr 0))
  | some .null => .ok none
  | some j => some <$> j.toNumber

/-- Letter spacing is a length, or an object with a value and a unit; percentages are of the font
size. -/
def readLetterSpacing (fontSize : Binary64) (field : Option Json) (base : Option Binary64) :
    Except Fault (Option Binary64) :=
  match field with
  | some (.obj fields) => do
    let spacing : Attributes := ⟨fields⟩
    let value ← (spacing.get "value").toNumber
    return some (if (spacing.get "unit").isStr "PERCENT" then (fontSize * value).divNat 100
      else value)
  | field => readOverride field base

/-- The typography of a style object; what it does not give is taken from the base. -/
def readTypography (style : Attributes) (base : Typography) : Except Fault Typography := do
  let fontSize ← (style.get "fontSize").toNumberOr base.fontSize
  let letterSpacing ← readLetterSpacing fontSize (style.get? "letterSpacing") base.letterSpacing
  return { fontFamily := (style.get "fontFamily").labelOr base.fontFamily
           fontSize
           fontWeight := ← readOverride (style.get? "fontWeight") base.fontWeight
           lineHeight := ← readOverride (style.get? "lineHeightPx") base.lineHeight
           letterSpacing
           textCase := (style.get "textCase").labelOr base.textCase
           textDecoration := (style.get "textDecoration").labelOr base.textDecoration
           textAlign := (style.get "textAlignHorizontal").labelOr base.textAlign }

/-! ## Runs -/

def codeUnits (c : Char) : Nat := if 0xffff < c.toNat then 2 else 1

/-- Every character with the key at its first code unit, zero past the end of the keys. -/
def keyed (keys : List Json) : List Char → List (Char × Json)
  | [] => []
  | c :: rest => (c, keys.headD (.int 0)) :: keyed (keys.drop (codeUnits c)) rest

/-- Stretches of characters whose keys equal the key of the stretch's first character, from a
stretch on that has been begun. -/
def stretches (key : Json) (begun : List Char) : List (Char × Json) → List (Json × List Char)
  | [] => [(key, begun.reverse)]
  | (c, k) :: rest =>
    if k.same key then stretches key (c :: begun) rest
    else (key, begun.reverse) :: stretches k [c] rest

def readRunColor (fills : List Attributes) : Except Fault (Option RGBA) :=
  match fills.find? fun fill ↦ (fill.get "type").isStr "SOLID" && isVisible fill with
  | some fill => some <$> readOwnColor fill
  | none => .ok none

/-- Whether an override says anything besides its fills. -/
def hasTypeFields (override : Attributes) : Bool := override.fields.any (·.1 != "fills")

/-- The override for a key, if the key counts as given and the table has an object for it. -/
def findOverride? (table : Attributes) (key : Json) : Option Attributes :=
  if key.isGiven then (table.get key.label).attributes? else none

def readRun (table : Attributes) (base : Typography) (key : Json) (text : List Char) :
    Except Fault TextRun :=
  match findOverride? table key with
  | none => .ok { text := String.ofList text }
  | some override => do
    let typography ←
      if hasTypeFields override then some <$> readTypography override base else pure none
    let color ← readRunColor (override.get "fills").objects
    return { text := String.ofList text, typography, color }

/-- The text of a node; a value that is no text is none. -/
def characters (node : Attributes) : String := ((node.get "characters").str?).getD ""

/-- The runs of a text node; none when the text is empty or no key counts as given. -/
def readRuns (node : Attributes) (base : Typography) : Except Fault (List TextRun) :=
  let keys := (node.get "characterStyleOverrides").items
  match keyed keys (characters node).toList with
  | [] => .ok []
  | (c, key) :: rest =>
    if keys.any Json.isGiven then
      (stretches key [c] rest).mapM fun (key, text) ↦
        readRun (node.get "styleOverrideTable").attributes base key text
    else .ok []

end DesignToWeb.Design
