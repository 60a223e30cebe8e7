import DesignToWeb.Proofs.Outcome
import DesignToWeb.Proofs.Service.Steps
import DesignToWeb.Service.Documents
import DesignToWeb.Service.Renders

/-!
# What fetching touches

Documents and renders are fetched with requests and waits, and are kept in the
store.  All else in a session stays as it was, however the fetching ends.
-/

namespace DesignToWeb.Service

open Service.Action

variable {γ : Type} {part : Session → γ}

/-- A part of sessions that has nothing to do with requests and waits. -/
structure Apart (part : Session → γ) : Prop where
  asked : ∀ (s : Session) (replies : List Reply) (requests : List Request),
    part { s with replies, requests } = part s
  waited : ∀ (s : Session) (waits : List Binary64), part { s with waits } = part s

theorem apart_files : Apart Session.files where
  asked _ _ _ := rfl
  waited _ _ := rfl

namespace Apart

theorem send (h : Apart part) (request : Request) : Keeps part (Action.send request) :=
  fun s ↦ h.asked s s.replies.tail (s.requests ++ [request])

theorem wait (h : Apart part) (machine : Machine) (seconds : Binary64) :
    Keeps part (Action.wait machine seconds) := by
  intro s
  rw [outcome_wait]
  cases waitFault? machine seconds with
  | some fault => rfl
  | none => exact h.waited s (s.waits ++ [seconds])

theorem ask (h : Apart part) (settings : Settings) (path : String)
    (params : Option (List (String × Json))) : Keeps part (Service.ask settings path params) := by
  apply Keeps.bind (.ofExcept _)
  intro headers
  apply Keeps.bind (h.send _)
  intro reply
  cases reply with
  | failure reason => exact .throw _
  | response response => exact .pure response

theorem askJson (h : Apart part) (settings : Settings) (path : String)
    (params : Option (List (String × Json))) :
    Keeps part (Service.askJson settings path params) := by
  apply Keeps.bind (h.ask settings path params)
  intro response
  split
  · exact .bind (.throw _) fun _ ↦ .ofExcept _
  · exact .ofExcept _

theorem probe (h : Apart part) (settings : Settings) (fileKey : String) :
    Keeps part (Service.probe settings fileKey) :=
  .bind (h.askJson settings _ _) fun _ ↦ .ofExcept _

/-! ## Renders -/

theorem askBatch (h : Apart part) (settings : Settings) (path : String)
    (params : List (String × Json)) (attempt attempts : Nat) :
    Keeps part (Service.askBatch settings path params attempt attempts) := by
  induction attempts generalizing attempt with
  | zero => exact .pure _
  | succ attempts ih =>
      apply Keeps.bind (h.ask settings path _)
      intro response
      split
      · apply Keeps.bind (.ofExcept _)
        intro seconds
        split
        · exact .pure _
        · exact .bind (h.wait settings.machine seconds) fun _ ↦ ih (attempt + 1)
      · split
        · exact .bind (.throw _) fun _ ↦ .bind (.ofExcept _) fun _ ↦ .pure _
        · exact .bind (.ofExcept _) fun _ ↦ .pure _

theorem askBatches (h : Apart part) (settings : Settings) (path format : String) (scale : Int)
    (urls : RenderUrls) (batches : List (List String)) :
    Keeps part (Service.askBatches settings path format scale urls batches) := by
  induction batches generalizing urls with
  | nil => exact .pure urls
  | cons batch rest ih =>
      apply Keeps.bind (h.askBatch settings path _ 0 _)
      intro outcome
      cases outcome with
      | answered more => exact ih (urls.merge more)
      | rateLimited => exact .pure urls
      | notAsked => exact ih urls

theorem renderUrlsOrNone (h : Apart part) (settings : Settings) (fileKey : String)
    (nodeIds : List String) (format : String) (scale : Int) :
    Keeps part (Service.renderUrlsOrNone settings fileKey nodeIds format scale) := by
  apply Keeps.tryCatch (h.askBatches settings _ format scale [] _)
  intro fault
  split
  · exact .pure _
  · exact .throw _

theorem download (h : Apart part) (settings : Settings) (url : Json) :
    Keeps part (Service.download settings url) := by
  apply Keeps.bind (h.send _)
  intro reply
  cases reply with
  | failure reason => exact .pure none
  | response response => exact .pure _

theorem downloadAll (h : Apart part) (settings : Settings) (urls : RenderUrls)
    (nodeIds : List String) : Keeps part (Service.downloadAll settings urls nodeIds) := by
  induction nodeIds with
  | nil => exact .pure []
  | cons nodeId rest ih =>
      unfold Service.downloadAll
      dsimp only
      split
      · exact .bind (h.download settings _) fun data ↦ .bind ih fun _ ↦ .pure _
      · exact .bind (.pure none) fun data ↦ .bind ih fun _ ↦ .pure _

end Apart

/-! ## Files -/

theorem keeps_files_modifyStore (f : Store → Store) :
    Keeps Session.files (Action.modifyStore f) := fun _ ↦ rfl

theorem keeps_files_fetchDocument (settings : Settings) (fileKey : String) :
    Keeps Session.files (fetchDocument settings fileKey) := by
  apply Keeps.bind (apart_files.askJson settings _ _)
  intro document
  have hsave : Keeps Session.files (saveDocument fileKey document) :=
    .bind (.ofExcept _) fun lastModified ↦ keeps_files_modifyStore _
  exact .bind hsave fun _ ↦ .pure document

theorem keeps_files_cachedDocument (settings : Settings) (fileKey : String) :
    Keeps Session.files (cachedDocument? settings fileKey) := by
  apply Keeps.bind .store
  intro store
  split
  · exact .pure none
  · split
    · exact .pure none
    · exact .bind (apart_files.probe settings fileKey) fun current ↦ .pure _

/-- Documents are fetched without a trace in the files. -/
theorem keeps_files_getDocument (settings : Settings) (fileKey : String) (useCache : Bool) :
    Keeps Session.files (getDocument settings fileKey useCache) := by
  have hfetch := keeps_files_fetchDocument settings fileKey
  unfold getDocument
  cases useCache with
  | true =>
      apply Keeps.bind (keeps_files_cachedDocument settings fileKey)
      intro cached
      cases cached with
      | some document => exact .pure document
      | none => exact hfetch
  | false =>
      apply Keeps.bind (.pure none)
      intro cached
      cases cached with
      | some document => exact .pure document
      | none => exact hfetch

theorem keeps_files_exportNodes (settings : Settings) (fileKey : String) (nodeIds : List String)
    (format : String) (scale : Int) (lastModified : Json) :
    Keeps Session.files (exportNodes settings fileKey nodeIds format scale lastModified) := by
  apply Keeps.bind .store
  intro store
  dsimp only
  split
  · exact .pure _
  · apply Keeps.bind (apart_files.renderUrlsOrNone settings fileKey _ format scale)
    intro urls
    apply Keeps.bind (apart_files.downloadAll settings urls _)
    intro fetched
    exact .bind (keeps_files_modifyStore _) fun _ ↦ .pure _

section Files

variable {settings : Settings} {fileKey : String} {s t : Session}

theorem files_of_getDocument {useCache : Bool} {result : Except Fault Json}
    (h : (getDocument settings fileKey useCache).outcome s = (result, t)) : t.files = s.files :=
  (keeps_files_getDocument settings fileKey useCache).eq_of_outcome h

theorem files_of_exportNodes {nodeIds : List String} {format : String} {scale : Int}
    {lastModified : Json} {result : Except Fault (List (String × String))}
    (h : (exportNodes settings fileKey nodeIds format scale lastModified).outcome s = (result, t)) :
    t.files = s.files :=
  (keeps_files_exportNodes settings fileKey nodeIds format scale lastModified).eq_of_outcome h

end Files

end DesignToWeb.Service
