import DesignToWeb.Json.Label
import DesignToWeb.Text.Character

/-!
# File keys

A file is named by its key, or by an address in which the key follows one of
the words for the kinds of files.
-/

namespace DesignToWeb.Service

/-- What stands before a key in an address. -/
def keyMarkers : List (List Char) :=
  ["/file/".toList, "/design/".toList, "/make/".toList]

def keyBehind? (cs marker : List Char) : Option (List Char) :=
  if marker.isPrefixOf cs then
    let key := (cs.drop marker.length).takeWhile Char.isAlphanum
    if key.isEmpty then none else some key
  else none

def findKey? : List Char → Option (List Char)
  | [] => none
  | c :: rest => (keyMarkers.findSome? (keyBehind? (c :: rest))).orElse fun _ ↦ findKey? rest

/-- The key that a text names: the text itself, if it is all letters and digits, or the key in an
address. -/
def fileKey? (text : String) : Option String :=
  let cs := Text.trimWhile Text.isBlank text.toList
  if !cs.isEmpty && cs.all Char.isAlphanum then some (String.ofList cs)
  else (findKey? cs).map String.ofList

def fileKeyOf? (j : Json) : Option String := fileKey? j.label

end DesignToWeb.Service
