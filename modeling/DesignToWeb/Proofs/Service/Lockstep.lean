import DesignToWeb.Proofs.Naming
import DesignToWeb.Proofs.Service.Conversion

/-!
# Actions in lockstep

Two actions are in lockstep when they end alike in sessions that are related, and
leave related sessions behind.  What is built from actions in lockstep is in
lockstep itself, so that a relation has to be looked at once for each of the few
things that a session can be used for.  The actions are those at settings that
agree in all but the token.  An action that is in lockstep with itself keeps what
the relation says of a single session.
-/

namespace DesignToWeb.Service

open Service.Action

variable {α β : Type} {R : Session → Session → Prop} {settings : Settings} {fileKey : String}
  {token : Option String}

/-- Whether two actions end alike in related sessions, and leave related sessions behind. -/
def InStep (R : Session → Session → Prop) (a b : Action α) : Prop :=
  ∀ s t, R s t → (a.outcome s).1 = (b.outcome t).1 ∧ R (a.outcome s).2 (b.outcome t).2

/-- Whether two sessions are the same, and one with a property. -/
def Both (P : Session → Prop) (s t : Session) : Prop := s = t ∧ P s

namespace InStep

theorem of_keeps {P : Session → Prop} {a : Action α} (h : ∀ s, P s → P (a.outcome s).2) :
    InStep (Both P) a a := by
  rintro s _ ⟨rfl, hs⟩
  exact ⟨rfl, rfl, h s hs⟩

theorem keeps {P : Session → Prop} {a : Action α} (h : InStep (Both P) a a) {s : Session}
    (hs : P s) : P (a.outcome s).2 :=
  (h s s ⟨rfl, hs⟩).2.2

theorem pure (x : α) : InStep R (pure x : Action α) (pure x) := fun _ _ h ↦ ⟨rfl, h⟩

theorem ofExcept (x : Except Fault α) : InStep R (Action.ofExcept x) (Action.ofExcept x) :=
  fun _ _ h ↦ ⟨rfl, h⟩

theorem throw (fault : Fault) : InStep R (throw fault : Action α) (throw fault) :=
  fun _ _ h ↦ ⟨rfl, h⟩

theorem exists_outcome {a b : Action α} (h : InStep R a b) {s t : Session} (hst : R s t) :
    ∃ result s' t', a.outcome s = (result, s') ∧ b.outcome t = (result, t') ∧ R s' t' := by
  obtain ⟨hresult, hafter⟩ := h s t hst
  exact ⟨(a.outcome s).1, (a.outcome s).2, (b.outcome t).2, rfl, Prod.ext hresult.symm rfl, hafter⟩

theorem bind {a b : Action α} {f g : α → Action β} (ha : InStep R a b)
    (hf : ∀ x, InStep R (f x) (g x)) : InStep R (a >>= f) (b >>= g) := by
  intro s t hst
  obtain ⟨result, s', t', hs, ht, hafter⟩ := ha.exists_outcome hst
  rw [outcome_bind, outcome_bind, hs, ht]
  cases result with
  | ok x => exact hf x s' t' hafter
  | error fault => exact ⟨rfl, hafter⟩

theorem tryCatch {a b : Action α} {handle handle' : Fault → Action α} (ha : InStep R a b)
    (hhandle : ∀ fault, InStep R (handle fault) (handle' fault)) :
    InStep R (tryCatch a handle) (tryCatch b handle') := by
  intro s t hst
  obtain ⟨result, s', t', hs, ht, hafter⟩ := ha.exists_outcome hst
  rw [outcome_tryCatch, outcome_tryCatch, hs, ht]
  cases result with
  | ok x => exact ⟨rfl, hafter⟩
  | error fault => exact hhandle fault s' t' hafter

end InStep

/-! ## Asking for documents -/

/-- The paths at which the design service is asked. -/
def IsApiPath (path : String) : Prop :=
  ∃ fileKey, path = documentPath fileKey ∨ path = "/images/" ++ fileKey

/-- What asking for documents does with a session, in lockstep at two tokens. -/
structure AsksInStep (R : Session → Session → Prop) (settings : Settings)
    (token : Option String) : Prop where
  store_eq : ∀ s t, R s t → s.store = t.store
  ask : ∀ path params, IsApiPath path →
    InStep R (ask settings path params) (ask { settings with figmaToken := token } path params)
  modifyStore : ∀ f, InStep R (Action.modifyStore f) (Action.modifyStore f)

namespace AsksInStep

variable (h : AsksInStep R settings token)

include h

theorem store : InStep R Action.store Action.store :=
  fun s t hst ↦ ⟨congrArg Except.ok (h.store_eq s t hst), hst⟩

theorem askJson (fileKey : String) (params : Option (List (String × Json))) :
    InStep R (askJson settings (documentPath fileKey) params)
      (askJson { settings with figmaToken := token } (documentPath fileKey) params) := by
  refine .bind (h.ask _ params ⟨fileKey, Or.inl rfl⟩) fun response ↦ ?_
  split
  · exact .bind (.throw _) fun _ ↦ .ofExcept _
  · exact .ofExcept _

theorem fetchDocument (fileKey : String) :
    InStep R (fetchDocument settings fileKey)
      (fetchDocument { settings with figmaToken := token } fileKey) := by
  refine .bind (h.askJson fileKey none) fun document ↦ ?_
  have hsave : InStep R (saveDocument fileKey document) (saveDocument fileKey document) :=
    .bind (.ofExcept _) fun _ ↦ h.modifyStore _
  exact .bind hsave fun _ ↦ .pure document

theorem cachedDocument? (fileKey : String) :
    InStep R (cachedDocument? settings fileKey)
      (cachedDocument? { settings with figmaToken := token } fileKey) := by
  refine .bind h.store fun store ↦ ?_
  split
  · exact .pure none
  · split
    · exact .pure none
    · have hprobe : InStep R (probe settings fileKey)
          (probe { settings with figmaToken := token } fileKey) :=
        .bind (h.askJson fileKey _) fun _ ↦ .ofExcept _
      exact .bind hprobe fun _ ↦ .pure _

theorem getDocument (fileKey : String) (useCache : Bool) :
    InStep R (getDocument settings fileKey useCache)
      (getDocument { settings with figmaToken := token } fileKey useCache) := by
  cases useCache with
  | true =>
      refine .bind (h.cachedDocument? fileKey) fun cached ↦ ?_
      cases cached with
      | some document => exact .pure document
      | none => exact h.fetchDocument fileKey
  | false => exact h.fetchDocument fileKey

end AsksInStep

/-! ## Fetching renders -/

/-- What fetching documents and renders does with a session, in lockstep at two tokens. -/
structure FetchesInStep (R : Session → Session → Prop) (settings : Settings)
    (token : Option String) : Prop extends AsksInStep R settings token where
  wait : ∀ seconds, InStep R (Action.wait settings.machine seconds)
    (Action.wait settings.machine seconds)
  download : ∀ url,
    InStep R (download settings url) (download { settings with figmaToken := token } url)

namespace FetchesInStep

variable (h : FetchesInStep R settings token)

include h

theorem askBatch {path : String} (hpath : IsApiPath path) (params : List (String × Json))
    (attempt attempts : Nat) :
    InStep R (askBatch settings path params attempt attempts)
      (askBatch { settings with figmaToken := token } path params attempt attempts) := by
  induction attempts generalizing attempt with
  | zero => exact .pure _
  | succ attempts ih =>
      refine .bind (h.ask path _ hpath) fun response ↦ ?_
      split
      · refine .bind (.ofExcept _) fun seconds ↦ ?_
        split
        · exact .pure _
        · exact .bind (h.wait seconds) fun _ ↦ ih (attempt + 1)
      · split
        · exact .bind (.throw _) fun _ ↦ .bind (.ofExcept _) fun _ ↦ .pure _
        · exact .bind (.ofExcept _) fun _ ↦ .pure _

theorem askBatches {path : String} (hpath : IsApiPath path) (format : String) (scale : Int)
    (urls : RenderUrls) (batches : List (List String)) :
    InStep R (askBatches settings path format scale urls batches)
      (askBatches { settings with figmaToken := token } path format scale urls batches) := by
  induction batches generalizing urls with
  | nil => exact .pure urls
  | cons batch rest ih =>
      refine .bind (h.askBatch hpath _ 0 _) fun outcome ↦ ?_
      cases outcome with
      | answered more => exact ih (urls.merge more)
      | rateLimited => exact .pure urls
      | notAsked => exact ih urls

theorem downloadAll (urls : RenderUrls) (nodeIds : List String) :
    InStep R (downloadAll settings urls nodeIds)
      (downloadAll { settings with figmaToken := token } urls nodeIds) := by
  induction nodeIds with
  | nil => exact .pure []
  | cons nodeId rest ih =>
      unfold Service.downloadAll
      dsimp only
      split
      · exact .bind (h.download _) fun _ ↦ .bind ih fun _ ↦ .pure _
      · exact .bind (.pure none) fun _ ↦ .bind ih fun _ ↦ .pure _

theorem exportNodes (fileKey : String) (nodeIds : List String) (format : String) (scale : Int)
    (lastModified : Json) :
    InStep R (exportNodes settings fileKey nodeIds format scale lastModified)
      (exportNodes { settings with figmaToken := token } fileKey nodeIds format scale
        lastModified) := by
  refine .bind h.store fun store ↦ ?_
  dsimp only
  split
  · exact .pure _
  · have hpath : IsApiPath ("/images/" ++ fileKey) := ⟨fileKey, Or.inr rfl⟩
    refine .bind (.tryCatch (h.askBatches hpath format scale [] _) fun fault ↦ ?_) fun urls ↦ ?_
    · split
      · exact .pure []
      · exact .throw fault
    · refine .bind (h.downloadAll urls _) fun fetched ↦ ?_
      exact .bind (h.modifyStore _) fun _ ↦ .pure _

end FetchesInStep

/-! ## Writing into the directory of a file -/

/-- What is written into the directory of a file, in lockstep.  The names on the way are plain. -/
structure WritesInStep (R : Session → Session → Prop) (settings : Settings) (fileKey : String) :
    Prop where
  writeData : ∀ (path : Path) (data : String), (∀ name ∈ path, Naming.IsPlainName name) →
    InStep R (Action.writeData settings.machine (siteDir settings fileKey ++ path) data)
      (Action.writeData settings.machine (siteDir settings fileKey ++ path) data)

namespace WritesInStep

variable (h : WritesInStep R settings fileKey)

include h

theorem writeAsset {name : String} (hname : Naming.IsPlainName name) (data : String) :
    InStep R (Action.writeData settings.machine (assetsDir settings fileKey ++ [name]) data)
      (Action.writeData settings.machine (assetsDir settings fileKey ++ [name]) data) := by
  have hassets : Naming.IsPlainName "assets" :=
    Naming.isPlainName_of_mem (c := 'a') (by decide) (by decide) (by decide)
  rw [assetsDir_append]
  refine h.writeData ["assets", name] data fun other hother ↦ ?_
  rcases List.mem_cons.mp hother with rfl | hother
  · exact hassets
  · rwa [List.mem_singleton.mp hother]

theorem writeRenders (drawings : List (String × String)) :
    InStep R (writeRenders settings.machine (assetsDir settings fileKey) drawings)
      (writeRenders settings.machine (assetsDir settings fileKey) drawings) := by
  induction drawings with
  | nil => exact .pure []
  | cons drawing rest ih =>
      refine .bind (h.writeAsset (Naming.isPlainName_fallbackAsset _) _) fun _ ↦ ?_
      exact .bind ih fun _ ↦ .pure _

theorem fillMissing (paths : AssetPaths) (ids : List String) :
    InStep R (fillMissing (assetsDir settings fileKey) paths ids settings.machine)
      (fillMissing (assetsDir settings fileKey) paths ids settings.machine) := by
  induction ids generalizing paths with
  | nil => exact .pure paths
  | cons id rest ih =>
      unfold Service.fillMissing
      split
      · exact ih paths
      · exact .bind (h.writeAsset (Naming.isPlainName_fallbackAsset id) _) fun _ ↦ ih _

theorem writeBitmaps (scale : Int) (rendered : List (String × String))
    (assets : List (String × Css.ImageAsset)) (nodes : List (String × ImageFill)) :
    InStep R
      (writeBitmaps settings.machine (assetsDir settings fileKey) scale rendered assets nodes)
      (writeBitmaps settings.machine (assetsDir settings fileKey) scale rendered assets nodes) := by
  induction nodes generalizing assets with
  | nil => exact .pure assets
  | cons node rest ih =>
      unfold Service.writeBitmaps
      split
      · exact ih assets
      · exact .bind (h.writeAsset (Naming.isPlainName_bitmapAsset _ scale (by decide)) _) fun _ ↦ ih _

theorem writeText {name : String} (hname : Naming.IsPlainName name) (text : String) :
    InStep R (Action.writeText settings.machine (siteDir settings fileKey ++ [name]) text)
      (Action.writeText settings.machine (siteDir settings fileKey ++ [name]) text) := by
  have hplain : ∀ other ∈ [name], Naming.IsPlainName other := fun other hother ↦ by
    rwa [List.mem_singleton.mp hother]
  unfold Action.writeText
  split
  · exact h.writeData _ _ hplain
  · exact .bind (h.writeData _ _ hplain) fun _ ↦ .throw _

theorem writeTexts {texts : List (String × String)}
    (htexts : ∀ text ∈ texts, Naming.IsPlainName text.1) :
    InStep R (writeTexts settings.machine (siteDir settings fileKey) texts)
      (writeTexts settings.machine (siteDir settings fileKey) texts) := by
  induction texts with
  | nil => exact .pure ()
  | cons text rest ih =>
      obtain ⟨hname, hrest⟩ := List.forall_mem_cons.mp htexts
      exact .bind (h.writeText hname text.2) fun _ ↦ ih hrest

end WritesInStep

/-! ## Conversions -/

theorem isPlainName_of_mem_siteTexts {emission : Emission} {manifest : Json} {text : String × String}
    (h : text ∈ siteTexts emission manifest) : Naming.IsPlainName text.1 := by
  have hname := name_mem_of_mem_siteTexts h
  generalize text.1 = name at hname
  have hs : 's' ∈ name.toList ∨ 'i' ∈ name.toList := by
    revert name
    decide
  have hslash : '/' ∉ name.toList := by
    revert name
    decide
  rcases hs with hs | hi
  · exact Naming.isPlainName_of_mem hs (by decide) hslash
  · exact Naming.isPlainName_of_mem hi (by decide) hslash

/-- What the conversion of a file does with a session, in lockstep at two tokens. -/
structure ConvertsInStep (R : Session → Session → Prop) (settings : Settings) (fileKey : String)
    (token : Option String) : Prop extends WritesInStep R settings fileKey where
  getDocument : ∀ useCache, InStep R (getDocument settings fileKey useCache)
    (getDocument { settings with figmaToken := token } fileKey useCache)
  exportNodes : ∀ nodeIds format scale lastModified,
    InStep R (exportNodes settings fileKey nodeIds format scale lastModified)
      (exportNodes { settings with figmaToken := token } fileKey nodeIds format scale lastModified)
  emptyDirectory : InStep R (Action.emptyDirectory settings.machine (siteDir settings fileKey))
    (Action.emptyDirectory settings.machine (siteDir settings fileKey))
  archiveSite : InStep R (archiveSite settings (siteDir settings fileKey))
    (archiveSite { settings with figmaToken := token } (siteDir settings fileKey))

namespace ConvertsInStep

variable (h : ConvertsInStep R settings fileKey token)

include h

theorem exportAssets (document : ClassifiedDocument) (lastModified : Json) :
    InStep R (exportAssets settings fileKey document lastModified)
      (exportAssets { settings with figmaToken := token } fileKey document lastModified) := by
  refine .bind (.bind (h.exportNodes _ _ _ _) h.writeRenders) fun exported ↦ ?_
  refine .bind (h.fillMissing exported _) fun _ ↦ ?_
  exact .bind (h.exportNodes _ _ _ _) fun rendered ↦ h.writeBitmaps _ rendered [] _

theorem convertFile (useCache : Bool) :
    InStep R (convertFile settings fileKey useCache)
      (convertFile { settings with figmaToken := token } fileKey useCache) := by
  refine .bind (h.getDocument useCache) fun json ↦ ?_
  refine .bind (.ofExcept _) fun lastModified ↦ ?_
  refine .bind (.ofExcept _) fun document ↦ ?_
  refine .bind h.emptyDirectory fun _ ↦ ?_
  refine .bind (h.exportAssets document lastModified) fun assets ↦ ?_
  refine .bind (.ofExcept _) fun emission ↦ ?_
  refine .bind (h.writeTexts fun _ ↦ isPlainName_of_mem_siteTexts) fun _ ↦ ?_
  refine .bind h.archiveSite fun _ ↦ ?_
  exact .bind (.ofExcept _) fun _ ↦ .bind (.ofExcept _) fun _ ↦ .pure _

end ConvertsInStep

section Files

variable (hfiles : ∀ f, InStep R (Action.modifyFiles f) (Action.modifyFiles f))

include hfiles

theorem inStep_emptyDirectory (machine : Machine) (dir : Path) :
    InStep R (emptyDirectory machine dir) (emptyDirectory machine dir) := by
  unfold emptyDirectory
  split
  · exact hfiles _
  · exact .bind (hfiles _) fun _ ↦ .throw _

theorem inStep_writeFile (machine : Machine) (path : Path) (content : Files → Content) :
    InStep R (writeFile machine path content) (writeFile machine path content) := by
  unfold writeFile
  split
  · exact hfiles _
  · exact .throw _

theorem inStep_archiveSite (settings : Settings) (dir : Path) :
    InStep R (archiveSite settings dir) (archiveSite settings dir) := by
  unfold archiveSite removeFile writeArchive
  refine .bind ?_ fun _ ↦ ?_
  · split
    · exact hfiles _
    · exact .throw _
  · split
    · exact inStep_writeFile hfiles _ _ _
    · exact .bind (inStep_writeFile hfiles _ _ _) fun _ ↦ .throw _

theorem convertsInStep_of_files (hget : ∀ useCache, InStep R (getDocument settings fileKey useCache)
      (getDocument { settings with figmaToken := token } fileKey useCache))
    (hexport : ∀ nodeIds format scale lastModified,
      InStep R (exportNodes settings fileKey nodeIds format scale lastModified)
        (exportNodes { settings with figmaToken := token } fileKey nodeIds format scale
          lastModified)) : ConvertsInStep R settings fileKey token where
  getDocument := hget
  exportNodes := hexport
  emptyDirectory := inStep_emptyDirectory hfiles _ _
  writeData _ _ _ := inStep_writeFile hfiles _ _ _
  archiveSite := inStep_archiveSite hfiles settings _

end Files

end DesignToWeb.Service
