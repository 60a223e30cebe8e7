import DesignToWeb.Json.Basic

/-!
# The store

Two collections, kept in the order in which their records were first saved:
documents by their file key, and renders by file key, node and format.
-/

namespace DesignToWeb.Service

structure StoredDocument where
  fileKey : String
  document : Json
  lastModified : Json

structure RenderKey where
  fileKey : String
  nodeId : String
  format : String
deriving DecidableEq

structure StoredRender where
  key : RenderKey
  lastModified : Json
  data : String

structure Store where
  documents : List StoredDocument := []
  renders : List StoredRender := []

/-- The list with a record in place of the one that it matches, or at the end. -/
def upsert {α : Type} (isMatch : α → Bool) (record : α) : List α → List α
  | [] => [record]
  | a :: rest => if isMatch a then record :: rest else a :: upsert isMatch record rest

namespace Store

def document? (s : Store) (fileKey : String) : Option StoredDocument :=
  s.documents.find? (·.fileKey == fileKey)

def saveDocument (s : Store) (record : StoredDocument) : Store :=
  { s with documents := upsert (·.fileKey == record.fileKey) record s.documents }

/-- Whether a render is one of those asked for.  A version counts only when it is given. -/
def isAsked (fileKey : String) (nodeIds : List String) (format : String) (lastModified : Json)
    (r : StoredRender) : Bool :=
  r.key.fileKey == fileKey && nodeIds.contains r.key.nodeId && r.key.format == format &&
    (!lastModified.isGiven || r.lastModified.same lastModified)

/-- The stored renders of nodes in a format, by node. -/
def renders? (s : Store) (fileKey : String) (nodeIds : List String) (format : String)
    (lastModified : Json) : List (String × String) :=
  (s.renders.filter (isAsked fileKey nodeIds format lastModified)).map fun r ↦
    (r.key.nodeId, r.data)

def saveRender (s : Store) (record : StoredRender) : Store :=
  { s with renders := upsert (fun r ↦ decide (r.key = record.key)) record s.renders }

def saveRenders (s : Store) (fileKey : String) (images : List (String × String))
    (format : String) (lastModified : Json) : Store :=
  images.foldl (fun s image ↦ s.saveRender ⟨⟨fileKey, image.1, format⟩, lastModified, image.2⟩) s

end Store
end DesignToWeb.Service
