import DesignToWeb.Binary64.Basic

/-!
# JSON values

Design documents arrive as JSON.  A number without fraction and exponent is a
whole number of any size, every other number a binary64 number; an object keeps
its fields in the order of arrival.  What the word `NaN` of a text stands for is
a value of its own.  By itself it equals nothing, but arrays and objects that
hold it at the same places can be equal.
-/

namespace DesignToWeb

inductive Json where
  | null
  | bool (value : Bool)
  | int (value : Int)
  | float (value : Binary64)
  /-- The one value of the word `NaN` in texts. -/
  | nan
  | str (value : String)
  | arr (items : List Json)
  | obj (fields : List (String × Json))
deriving Inhabited

theorem mem_of_lookup {α : Type} {key : String} {a : α} {pairs : List (String × α)}
    (h : pairs.lookup key = some a) : (key, a) ∈ pairs := by
  obtain ⟨before, after, hpairs, _⟩ := List.lookup_eq_some_iff.mp h
  rw [hpairs]
  exact List.mem_append_right before List.mem_cons_self

structure Attributes where
  fields : List (String × Json)
deriving Inhabited

namespace Attributes

def empty : Attributes := ⟨[]⟩

def get? (a : Attributes) (key : String) : Option Json := a.fields.lookup key

/-- The value of a field; a missing field is null. -/
def get (a : Attributes) (key : String) : Json := (a.get? key).getD .null

/-- The fields with one more; a field of that name keeps its place and takes the new value. -/
def insertField (key : String) (value : Json) : List (String × Json) → List (String × Json)
  | [] => [(key, value)]
  | (k, v) :: rest => if k = key then (k, value) :: rest else (k, v) :: insertField key value rest

/-- The object with the given fields, a later field winning over an earlier one of its name. -/
def ofFields (fields : List (String × Json)) : Attributes :=
  ⟨fields.foldl (fun acc field ↦ insertField field.1 field.2 acc) []⟩

end Attributes

namespace Json

def attributes? : Json → Option Attributes
  | obj fields => some ⟨fields⟩
  | _ => none

/-- The fields of an object; a value that is no object has none. -/
def attributes (j : Json) : Attributes := j.attributes?.getD .empty

def items : Json → List Json
  | arr items => items
  | _ => []

def objects (j : Json) : List Attributes := j.items.filterMap attributes?

def str? : Json → Option String
  | str s => some s
  | _ => none

def isStr (j : Json) (s : String) : Bool :=
  match j with
  | str t => t == s
  | _ => false

def isFalse : Json → Bool
  | bool false => true
  | _ => false

/-- Null, false, zero and whatever is empty do not count as given; NaN does. -/
def isGiven : Json → Bool
  | null => false
  | bool b => b
  | int n => n != 0
  | float x => !x.isZero
  | nan => true
  | str s => s != ""
  | arr items => !items.isEmpty
  | obj fields => !fields.isEmpty

/-- The exact place of a number, an infinity beyond every finite one; booleans count as zero and
one. -/
def numeric? : Json → Option (Int × Int)
  | bool b => some (0, if b then unitsInOne else 0)
  | int n => some (0, n * unitsInOne)
  | float (.finite negative magnitude) => some (0, Binary64.signedUnits negative magnitude)
  | float (.infinite negative) => some (if negative then -1 else 1, 0)
  | _ => none

mutual

/-- Whether values are alike as parts of a larger one: numbers are compared exactly across their
kinds, and objects regardless of the order of their fields.  The NaN of texts is recognised; a NaN
from elsewhere is like nothing. -/
def alike : Json → Json → Bool
  | null, null => true
  | nan, nan => true
  | str s, str t => s == t
  | arr xs, arr ys => alikeItems xs ys
  | obj xs, obj ys => xs.length == ys.length && alikeFields xs ys
  | x, y =>
    match x.numeric?, y.numeric? with
    | some a, some b => a == b
    | _, _ => false

def alikeItems : List Json → List Json → Bool
  | [], [] => true
  | x :: xs, y :: ys => alike x y && alikeItems xs ys
  | _, _ => false

/-- Every field of the first list has a like value in the second. -/
def alikeFields : List (String × Json) → List (String × Json) → Bool
  | [], _ => true
  | (k, v) :: rest, ys =>
    (match ys.lookup k with
      | some w => alike v w
      | none => false) && alikeFields rest ys

end

/-- Equality of values by themselves, which no NaN is equal to. -/
def same : Json → Json → Bool
  | nan, nan => false
  | x, y => alike x y

end Json
end DesignToWeb
