import DesignToWeb.Text.Sha1

/-!
# Names of elements

Markup, stylesheet and asset files all name an element through its slug: its id
with every unsafe character replaced, and the beginning of the id's digest,
which keeps ids apart that are alike after the replacement.
-/

namespace DesignToWeb.Naming

def isSafe (c : Char) : Bool := c.isAlphanum || c == '_' || c == '-'

def safeId (id : String) : String :=
  String.ofList (id.toList.map fun c ↦ if isSafe c then c else '_')

def shortDigest (id : String) : String := String.ofList ((Text.Sha1.hexDigest id).take 8)

def slug (id : String) : String := safeId id ++ "-" ++ shortDigest id

def cssClass (id : String) : String := "n-" ++ slug id

def spanClass (id : String) (index : Int) : String := cssClass id ++ "__span-" ++ toString index

def fallbackAsset (id : String) : String := slug id ++ ".svg"

def bitmapAsset (id : String) (scale : Int) (format : String) : String :=
  slug id ++ "@" ++ toString scale ++ "x." ++ format

/-- The address of the file of an exported element, seen from the page. -/
def fallbackAddress (id : String) : String := "./assets/" ++ fallbackAsset id

/-- The address of the bitmap of an element, seen from the page. -/
def bitmapAddress (id : String) (scale : Int) : String := "./assets/" ++ bitmapAsset id scale "png"

end DesignToWeb.Naming
