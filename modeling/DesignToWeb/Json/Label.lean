import DesignToWeb.Binary64.Shortest
import DesignToWeb.Json.Basic
import DesignToWeb.Text.Quoted

/-!
# Labels

The text that stands for a value where a name or an id is expected.  A text is
its own label; a text inside an array or an object is quoted.
-/

namespace DesignToWeb.Json

mutual

/-- A value as it is listed inside an array or an object. -/
def listing : Json → String
  | null => "None"
  | bool b => if b then "True" else "False"
  | int n => toString n
  | float x => x.text
  | nan => Binary64.nan.text
  | str s => Text.quoted s
  | arr items => "[" ++ ", ".intercalate (itemListings items) ++ "]"
  | obj fields => "\x7b" ++ ", ".intercalate (fieldListings fields) ++ "\x7d"

def itemListings : List Json → List String
  | [] => []
  | item :: rest => listing item :: itemListings rest

def fieldListings : List (String × Json) → List String
  | [] => []
  | (key, value) :: rest => (Text.quoted key ++ ": " ++ listing value) :: fieldListings rest

end

def label : Json → String
  | str s => s
  | j => listing j

/-- The label of a value that counts as given, the empty text otherwise. -/
def labelOrEmpty (j : Json) : String := if j.isGiven then j.label else ""

def labelOr (fallback : String) (j : Json) : String := if j.isGiven then j.label else fallback

end DesignToWeb.Json
