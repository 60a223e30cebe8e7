import DesignToWeb.Service.Session

/-!
# Fetching documents

The document of a file is kept in the store.  It is used again as long as the
service reports the same time of change, for which a probe without the nodes of
the document is enough.
-/

namespace DesignToWeb.Service

def askJson (settings : Settings) (path : String) (params : Option (List (String × Json))) :
    Action Json := do
  let response ← ask settings path params
  if response.isRefusal then throw response.refusal
  Action.ofExcept response.json

def documentPath (fileKey : String) : String := "/files/" ++ fileKey

def probe (settings : Settings) (fileKey : String) : Action Json := do
  let answer ← askJson settings (documentPath fileKey) (some [("depth", .int 1)])
  Action.ofExcept (field answer "lastModified")

def saveDocument (fileKey : String) (document : Json) : Action Unit := do
  let lastModified ← Action.ofExcept (field document "lastModified")
  Action.modifyStore (·.saveDocument ⟨fileKey, document, lastModified⟩)

def fetchDocument (settings : Settings) (fileKey : String) : Action Json := do
  let document ← askJson settings (documentPath fileKey) none
  saveDocument fileKey document
  return document

/-- The stored document, if there is one and the service reports its time of change. -/
def cachedDocument? (settings : Settings) (fileKey : String) : Action (Option Json) := do
  match (← Action.store).document? fileKey with
  | none => return none
  | some record =>
    if !record.document.isGiven then return none
    let current ← probe settings fileKey
    return if current.isGiven && current.same record.lastModified then some record.document
      else none

/-- The document of a file, from the store while it is fresh if the cache may be used. -/
def getDocument (settings : Settings) (fileKey : String) (useCache : Bool) : Action Json := do
  let cached ← if useCache then cachedDocument? settings fileKey else pure none
  match cached with
  | some document => return document
  | none => fetchDocument settings fileKey

end DesignToWeb.Service
