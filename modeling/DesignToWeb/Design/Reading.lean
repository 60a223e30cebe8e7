import DesignToWeb.Fault
import DesignToWeb.Style
import DesignToWeb.Text.Numeral

/-!
# Reading the parts of a node

A field that should hold a number may hold anything.  What is no finite number
gives way to a fallback; only a whole number beyond the range is a fault.  The
entries of a list of fills, strokes or effects are read one by one.  A hidden
entry counts as absent; a visible one comes to a value or to a warning.
-/

namespace DesignToWeb

/-! ## Numbers -/

namespace Json

/-- Whether the value is a number, which a boolean is not. -/
def isNumber : Json → Bool
  | int _ => true
  | float _ | nan => true
  | _ => false

/-- The finite number that a value holds or writes, else the fallback. -/
def toNumberOr (fallback : Binary64) : Json → Except Fault Binary64
  | int n => Binary64.ofIntChecked n
  | float x => .ok (x.finiteOr fallback)
  | str s => .ok (((Text.number? s).map (·.finiteOr fallback)).getD fallback)
  | _ => .ok fallback

def toNumber (j : Json) : Except Fault Binary64 := j.toNumberOr 0

end Json

namespace Design

/-! ## Colours -/

/-- A colour.  The opacity of its paint, when that is a number, takes the place of its own alpha;
channels that are missing are zero and a missing alpha is one. -/
def readColor (color opacity : Json) : Except Fault RGBA := do
  let c := color.attributes
  let alpha ← (if opacity.isNumber then opacity else c.get "a").toNumberOr 1
  return { red := ← (c.get "r").toNumber
           green := ← (c.get "g").toNumber
           blue := ← (c.get "b").toNumber
           alpha }

def readOwnColor (paint : Attributes) : Except Fault RGBA :=
  readColor (paint.get "color") (paint.get "opacity")

def readStop (stop : Attributes) : Except Fault ColorStop := do
  return { position := ← (stop.get "position").toNumber, color := ← readOwnColor stop }

/-- The stops of a gradient; entries that are no objects are left out. -/
def readStops (stops : Json) : Except Fault (List ColorStop) := stops.objects.mapM readStop

/-! ## Lists of paints -/

/-- What one visible entry comes to. -/
inductive Reading (α : Type) where
  | drawn (value : α)
  | unsupported (warning : String)

/-- What a list of entries comes to, in the order of the list. -/
structure Readings (α : Type) where
  items : List α
  warnings : List String

variable {α : Type}

def Reading.value? : Reading α → Option α
  | drawn a => some a
  | unsupported _ => none

def Reading.warning? : Reading α → Option String
  | drawn _ => none
  | unsupported w => some w

def Readings.ofList (rs : List (Reading α)) : Readings α :=
  ⟨rs.filterMap Reading.value?, rs.filterMap Reading.warning?⟩

/-- An entry is hidden only by the value `false` itself. -/
def isVisible (entry : Attributes) : Bool := !(entry.get "visible").isFalse

def readVisible (read : Attributes → Except Fault (Reading α)) (entries : List Attributes) :
    Except Fault (Readings α) := do
  return .ofList (← (entries.filter isVisible).mapM read)

end Design
end DesignToWeb
