import DesignToWeb.Service.Files
import DesignToWeb.Service.Http
import DesignToWeb.Service.Store
import DesignToWeb.Settings

/-!
# Sessions

A session is what the service has done so far and what it will meet: the
requests it sent and the replies to come, the times it waited, its store and its
files.  An action may end in a fault, and leaves behind what it has done until
then.
-/

namespace DesignToWeb.Service

structure Session where
  /-- The replies to the requests to come. -/
  replies : List Reply := []
  requests : List Request := []
  /-- The seconds that were waited. -/
  waits : List Binary64 := []
  store : Store := {}
  files : Files := []

abbrev Action := ExceptT Fault (StateM Session)

namespace Action

/-- An outcome that needs no session. -/
def ofExcept {α : Type} (x : Except Fault α) : Action α := ExceptT.mk (pure x)

/-- Sends a request and takes the next reply; without one the service cannot be reached. -/
def send (request : Request) : Action Reply := do
  let session ← get
  let reply := session.replies.headD (.failure "script exhausted")
  set { session with replies := session.replies.tail, requests := session.requests ++ [request] }
  return reply

/-- Waits for some seconds, which must be a number that the clock can count, and not negative. -/
def wait (machine : Machine) (seconds : Binary64) : Action Unit := do
  if seconds.isNaN then throw .nanDelay
  if !machine.counts seconds then throw (.obstacle .uncountedDelay)
  if seconds.lt 0 then throw .negativeDelay
  modify fun session ↦ { session with waits := session.waits ++ [seconds] }

def store : Action Store := return (← get).store

def modifyStore (f : Store → Store) : Action Unit :=
  modify fun session ↦ { session with store := f session.store }

def modifyFiles (f : Files → Files) : Action Unit :=
  modify fun session ↦ { session with files := f session.files }

def refuse (reason : String) : Action Unit := throw (.obstacle (.refusedChange reason))

/-- Empties a directory, as far as the machine lets it. -/
def emptyDirectory (machine : Machine) (dir : Path) : Action Unit := do
  match machine.emptying? dir with
  | none => modifyFiles (·.removeTree dir)
  | some (reason, stays) =>
    modifyFiles (·.removeTreeBut stays dir)
    refuse reason

/-- Removes a file, if there is one. -/
def removeFile (machine : Machine) (path : Path) : Action Unit :=
  match machine.removing? path with
  | none => modifyFiles (·.erase path)
  | some reason => refuse reason

/-- Writes a file that can be opened. -/
def writeFile (machine : Machine) (path : Path) (content : Files → Content) : Action Unit :=
  match machine.opening? path with
  | none => modifyFiles fun files ↦ files.write path (content files)
  | some reason => refuse reason

def writeData (machine : Machine) (path : Path) (data : String) : Action Unit :=
  writeFile machine path fun _ ↦ .text data

/-- Writes a text, or as many of its characters as the machine takes. -/
def writeText (machine : Machine) (path : Path) (text : String) : Action Unit := do
  match machine.writing? path text with
  | none => writeData machine path text
  | some (reason, count) =>
    writeData machine path (String.ofList (text.toList.take count))
    refuse reason

/-- Writes an archive of a directory, or of as many of its files as the machine takes. -/
def writeArchive (machine : Machine) (path dir : Path) : Action Unit := do
  match machine.archiving? path with
  | none => writeFile machine path fun files ↦ .archive (files.listing dir)
  | some (reason, count) =>
    writeFile machine path fun files ↦ .archive ((files.listing dir).take count)
    refuse reason

end Action

/-- The headers that show the token to the design service. -/
def tokenHeaders (settings : Settings) : Except Fault (List (String × String)) :=
  match settings.figmaToken with
  | none => .error (.serviceFailure 401 "FIGMA_TOKEN not set")
  | some token =>
    if token = "" then .error (.serviceFailure 401 "FIGMA_TOKEN not set")
    else .ok [("X-Figma-Token", token)]

/-- Asks the design service; a service that cannot be reached counts as a bad gateway. -/
def ask (settings : Settings) (path : String) (params : Option (List (String × Json))) :
    Action Response := do
  let headers ← Action.ofExcept (tokenHeaders settings)
  match ← Action.send { url := .str (settings.apiBase ++ path)
                        headers := some headers
                        params
                        timeout := settings.requestTimeout } with
  | .failure reason => throw (.serviceFailure 502 reason)
  | .response response => return response

end DesignToWeb.Service
