import DesignToWeb.Fault
import DesignToWeb.Text.Character

/-!
# Requests and replies
-/

namespace DesignToWeb.Service

structure Request where
  /-- The address; that of a render is whatever the service gave for it. -/
  url : Json
  headers : Option (List (String × String)) := none
  params : Option (List (String × Json)) := none
  timeout : Binary64

structure Response where
  status : Int := 200
  headers : List (String × String) := []
  body : String := ""

inductive Reply where
  /-- The service could not be reached. -/
  | failure (reason : String)
  | response (response : Response)

namespace Response

/-- The value of a header, whose name is the same in any case. -/
def header? (r : Response) (name : String) : Option String :=
  (r.headers.reverse.find? fun header ↦ Text.lowerAscii header.1 == Text.lowerAscii name).map (·.2)

def isRefusal (r : Response) : Bool := 400 ≤ r.status

/-- The fault for a refusal, with the beginning of the answer as its reason. -/
def refusal (r : Response) : Fault :=
  .serviceFailure r.status (String.ofList (r.body.toList.take 500))

def json (r : Response) : Except Fault Json :=
  match Json.read r.body with
  | .ok j => .ok j
  | .error e => .error (.notJson e)

end Response

/-- A field of an answer, which must be an object. -/
def field (j : Json) (key : String) : Except Fault Json :=
  match j.attributes? with
  | some a => .ok (a.get key)
  | none => .error (.noFields j)

end DesignToWeb.Service
