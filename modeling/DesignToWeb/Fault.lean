import DesignToWeb.Json.Reader

/-!
# Faults

Everything that can end a computation early, as causes.  The wording of each is
in `Fault.message`.
-/

namespace DesignToWeb

/-- What the surroundings of the service do not give it. -/
inductive Obstacle where
  /-- A variable of the environment that is no number. -/
  | unreadableSetting (text : String)
  /-- A delay beyond what the clock can count. -/
  | uncountedDelay
  /-- A change to the files that is not made, or not to its end. -/
  | refusedChange (reason : String)

inductive Fault where
  | integerTooLarge
  | infinityToInteger
  | nanToInteger
  /-- An array or object where a name is looked up. -/
  | compoundName (value : Json)
  /-- A number or boolean where a list is walked. -/
  | noList (value : Json)
  /-- A value without fields where a field is read. -/
  | noFields (value : Json)
  /-- An entry of a list of pairs that is no sequence. -/
  | pairNoSequence (index : Nat)
  /-- An entry of a list of pairs that has another length than two. -/
  | pairLength (index length : Nat)
  | negativeDelay
  | nanDelay
  | obstacle (withheld : Obstacle)
  | notJson (error : Json.ReadError)
  /-- The design service refused a request or could not be reached. -/
  | serviceFailure (status : Int) (reason : String)
  | documentNoObject
  | documentWithoutChildren
  /-- A field of an answer that is neither a text nor null. -/
  | malformedAnswer

/-- The faults of the surroundings, under the name of the first of them. -/
@[match_pattern, deprecated Fault.obstacle (since := "2026-02-02")]
def Fault.unreadableSetting (withheld : Obstacle) : Fault := .obstacle withheld

namespace Json

/-- The name of a kind of value in messages. -/
def kindName : Json → String
  | null => "NoneType"
  | bool _ => "bool"
  | int _ => "int"
  | float _ | nan => "float"
  | str _ => "str"
  | arr _ => "list"
  | obj _ => "dict"

end Json

def Obstacle.message : Obstacle → String
  | unreadableSetting text => "could not convert string to number: '" ++ text ++ "'"
  | uncountedDelay => "timestamp out of range for platform time_t"
  | refusedChange reason => reason

def Fault.message : Fault → String
  | integerTooLarge => "int too large to convert to float"
  | infinityToInteger => "cannot convert float infinity to integer"
  | nanToInteger => "cannot convert float NaN to integer"
  | compoundName value => "unhashable type: '" ++ value.kindName ++ "'"
  | noList value => "'" ++ value.kindName ++ "' object is not iterable"
  | noFields value => "'" ++ value.kindName ++ "' object has no attribute 'get'"
  | pairNoSequence index =>
    "cannot convert dictionary update sequence element #" ++ toString index ++ " to a sequence"
  | pairLength index length =>
    "dictionary update sequence element #" ++ toString index ++ " has length " ++
      toString length ++ "; 2 is required"
  | negativeDelay => "sleep length must be non-negative"
  | nanDelay => "Invalid value NaN (not a number)"
  | obstacle withheld => withheld.message
  | notJson error => error.message
  | serviceFailure status reason =>
    "Figma API error (" ++ toString status ++ "): " ++ reason
  | documentNoObject => "Figma document must be a JSON object"
  | documentWithoutChildren => "Figma document has no children list"
  | malformedAnswer => "<validation>"

namespace Binary64

def toInt (x : Binary64) : Except Fault Int :=
  match x.truncate? with
  | some n => .ok n
  | none => .error (if x.isNaN then .nanToInteger else .infinityToInteger)

/-- The number nearest to a whole number that is not too large. -/
def ofIntChecked (n : Int) : Except Fault Binary64 :=
  let x := ofInt n
  if x.isFinite then .ok x else .error .integerTooLarge

end Binary64
end DesignToWeb
