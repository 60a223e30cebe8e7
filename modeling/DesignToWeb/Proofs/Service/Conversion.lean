import DesignToWeb.Proofs.Service.Assets
import DesignToWeb.Proofs.Service.Fetching
import DesignToWeb.Service.Front

/-!
# The steps of a conversion

A conversion that succeeds has gone through all of its steps, one that fails has
come as far as to the step that failed.  The steps are told apart here once, with
what each of them was given and what it left behind, so that nothing else has to
look into the sequence again.
-/

namespace DesignToWeb.Service

open Service.Action

def assetsDir (settings : Settings) (fileKey : String) : Path :=
  siteDir settings fileKey ++ ["assets"]

theorem assetsDir_append (settings : Settings) (fileKey name : String) :
    assetsDir settings fileKey ++ [name] = siteDir settings fileKey ++ ["assets", name] :=
  List.append_assoc _ _ _

def textFiles (dir : Path) (texts : List (String × String)) : Files :=
  texts.map fun text ↦ (dir ++ [text.1], .text text.2)

def siteFiles (dir : Path) (emission : Emission) (manifest : Json) : Files :=
  textFiles dir (siteTexts emission manifest)

theorem name_mem_of_mem_siteTexts {emission : Emission} {manifest : Json} {text : String × String}
    (h : text ∈ siteTexts emission manifest) :
    text.1 ∈ ["index.html", "styles.css", "nodes.json"] :=
  List.mem_map_of_mem h

/-- Whether all files are assets in the directory of a file. -/
def AreAssets (settings : Settings) (fileKey : String) (files : Files) : Prop :=
  ∀ file ∈ files, ∃ name, file.1 = assetsDir settings fileKey ++ [name]

/-! ## Steps -/

/-- The steps of an export of assets, from the session in which it began to the one that it left
behind. -/
structure AssetExport (settings : Settings) (fileKey : String) (document : ClassifiedDocument)
    (lastModified : Json) (before after : Session) where
  /-- The exported drawings of the elements that markup cannot show. -/
  drawings : List (String × String)
  drawn : Session
  drawings_eq :
    (exportNodes settings fileKey document.fallbackIds "svg" 1 lastModified).outcome before =
      (.ok drawings, drawn)
  placeholders : Files
  mem_placeholders : ∀ file, file ∈ placeholders ↔
    IsPlaceholder (assetsDir settings fileKey) drawings document.fallbackIds file
  /-- The exported bitmaps of the elements with an image fill. -/
  bitmaps : List (String × String)
  filled : Session
  bitmaps_eq :
    (exportNodes settings fileKey (document.imageFillNodes.map (·.1)) "png" settings.bitmapScale
      lastModified).outcome
        { drawn with files := (drawn.files.writeAll
          (drawingFiles (assetsDir settings fileKey) drawings)).writeAll placeholders } =
        (.ok bitmaps, filled)
  assets : Css.ImageAssets
  hasBitmap : ∀ asset ∈ assets,
    HasBitmap settings.bitmapScale bitmaps document.imageFillNodes asset
  opens : Opens settings.machine (drawingFiles (assetsDir settings fileKey) drawings ++
    placeholders ++ bitmapFiles (assetsDir settings fileKey) settings.bitmapScale bitmaps
      document.imageFillNodes)
  after_eq : after =
    { filled with
      files := filled.files.writeAll (bitmapFiles (assetsDir settings fileKey)
        settings.bitmapScale bitmaps document.imageFillNodes) }

/-- The steps of a conversion up to the texts of its site, from the session in which it was asked
for. -/
structure Assembly (settings : Settings) (request : ConversionRequest) (before : Session) where
  fileKey : String
  key_eq : fileKey? request.figmaUrl = some fileKey
  /-- The document as it was fetched. -/
  json : Json
  fetched : Session
  getDocument_eq :
    (getDocument settings fileKey request.useCache).outcome before = (.ok json, fetched)
  lastModified : Json
  lastModified_eq : field json "lastModified" = .ok lastModified
  document : ClassifiedDocument
  classify_eq : classifyDocument settings.policy json = .ok document
  emptied : settings.machine.emptying? (siteDir settings fileKey) = none
  exported : Session
  exports : AssetExport settings fileKey document lastModified
    { fetched with files := fetched.files.removeTree (siteDir settings fileKey) } exported
  emission : Emission
  emit_eq : emit (pageTitle fileKey json.attributes) exports.assets document = .ok emission

namespace Assembly

variable {settings : Settings} {request : ConversionRequest} {before : Session}
  (steps : Assembly settings request before)

def dir : Path := siteDir settings steps.fileKey

def manifest : Json :=
  Manifest.build steps.fileKey steps.json.attributes steps.document.scene steps.document.tally

/-- The files when all texts of the site have been written. -/
def finished : Files :=
  steps.exported.files.writeAll (siteFiles steps.dir steps.emission steps.manifest)

/-- The files that come into the archive, in its order. -/
def listing : Files :=
  (steps.finished.erase (Path.ofText settings.zipPath)).listing steps.dir

end Assembly

/-- The steps of a conversion, from the session in which it was asked for to the one that it left
behind. -/
structure Conversion (settings : Settings) (request : ConversionRequest)
    (before after : Session) extends Assembly settings request before where
  after_files : after.files =
    toAssembly.finished.putArchive (Path.ofText settings.zipPath) toAssembly.listing

variable {settings : Settings} {request : ConversionRequest} {before after : Session}

/-! ## Exports of assets -/

section Assets

variable {fileKey : String} {files more : Files}

theorem areAssets_nil (settings : Settings) (fileKey : String) : AreAssets settings fileKey [] :=
  fun _ hfile ↦ absurd hfile List.not_mem_nil

theorem areAssets_append :
    AreAssets settings fileKey (files ++ more) ↔
      AreAssets settings fileKey files ∧ AreAssets settings fileKey more :=
  List.forall_mem_append

theorem areAssets_drawingFiles (fileKey : String) (drawings : List (String × String)) :
    AreAssets settings fileKey (drawingFiles (assetsDir settings fileKey) drawings) := by
  intro file hfile
  obtain ⟨drawing, _, rfl⟩ := List.mem_map.mp hfile
  exact ⟨_, rfl⟩

theorem areAssets_placeholders {α : Type} {found : List (String × α)} {ids : List String}
    (h : ∀ file, file ∈ files ↔ IsPlaceholder (assetsDir settings fileKey) found ids file) :
    AreAssets settings fileKey files := by
  intro file hfile
  obtain ⟨id, _, _, rfl⟩ := (h file).mp hfile
  exact ⟨_, rfl⟩

theorem areAssets_bitmapFiles (fileKey : String) (scale : Int) (rendered : List (String × String))
    (nodes : List (String × ImageFill)) :
    AreAssets settings fileKey (bitmapFiles (assetsDir settings fileKey) scale rendered nodes) := by
  intro file hfile
  obtain ⟨node, _, data, _, rfl⟩ := mem_bitmapFiles.mp hfile
  exact ⟨_, rfl⟩

end Assets

/-- Why an export of assets stops: an export of renders fails, or a file is refused. -/
inductive StopsAssets (settings : Settings) (fileKey : String) (lastModified : Json) :
    Fault → Prop
  | unrendered {nodeIds : List String} {format : String} {scale : Int} {s t : Session}
      {fault : Fault}
      (h : (exportNodes settings fileKey nodeIds format scale lastModified).outcome s =
        (.error fault, t)) : StopsAssets settings fileKey lastModified fault
  | refused (reason : String) :
      StopsAssets settings fileKey lastModified (.obstacle (.refusedChange reason))

/-- How an export of assets can end. -/
inductive AssetExportEnds (settings : Settings) (fileKey : String) (document : ClassifiedDocument)
    (lastModified : Json) (before after : Session) : Except Fault Css.ImageAssets → Prop
  /-- The export has been stopped, and nothing but assets has been written. -/
  | stopped {fault : Fault} {written : Files}
      (hcause : StopsAssets settings fileKey lastModified fault)
      (hwritten : AreAssets settings fileKey written)
      (hfiles : after.files = before.files.writeAll written) :
      AssetExportEnds settings fileKey document lastModified before after (.error fault)
  | exported (steps : AssetExport settings fileKey document lastModified before after) :
      AssetExportEnds settings fileKey document lastModified before after (.ok steps.assets)

section Stops

variable {fileKey : String} {document : ClassifiedDocument} {lastModified : Json}
  {written files : Files} {u : Session} {fault : Fault}

theorem assetExportEnds_of_unrendered {nodeIds : List String} {format : String} {scale : Int}
    (hwritten : AreAssets settings fileKey written) (hu : u.files = before.files.writeAll written)
    (h : (exportNodes settings fileKey nodeIds format scale lastModified).outcome u =
      (.error fault, after)) :
    AssetExportEnds settings fileKey document lastModified before after (.error fault) :=
  .stopped (.unrendered h) hwritten ((files_of_exportNodes h).trans hu)

theorem assetExportEnds_of_refused (hwritten : AreAssets settings fileKey written)
    (hu : u.files = before.files.writeAll written) (hfiles : AreAssets settings fileKey files)
    (h : WritingEnds settings.machine files u (some fault) after) :
    AssetExportEnds settings fileKey document lastModified before after (.error fault) := by
  cases h with
  | refused heq _ =>
      rw [heq] at hfiles
      have hfirst := (areAssets_append.mp hfiles).1
      refine .stopped (.refused _) (areAssets_append.mpr ⟨hwritten, hfirst⟩) ?_
      rw [Files.writeAll_append, ← hu]

end Stops

theorem assetExportEnds_exportAssets {fileKey : String} {document : ClassifiedDocument}
    {lastModified : Json} {result : Except Fault Css.ImageAssets}
    (h : (exportAssets settings fileKey document lastModified).outcome before = (result, after)) :
    AssetExportEnds settings fileKey document lastModified before after result := by
  have hnone := areAssets_nil settings fileKey
  rw [exportAssets, exportFallbacks, bind_assoc] at h
  rcases bind_eq.mp h with ⟨fault, hdrawings, rfl⟩ | ⟨drawings, drawn, hdrawings, h⟩
  · exact assetExportEnds_of_unrendered hnone rfl hdrawings
  have hown : AreAssets settings fileKey (drawingFiles (assetsDir settings fileKey) drawings) :=
    areAssets_drawingFiles fileKey drawings
  have hdrawn := files_of_exportNodes hdrawings
  obtain ⟨_, t, hends, hrun⟩ := exists_writeRenders settings.machine (assetsDir settings fileKey)
    drawings drawn
  rcases bind_of_orFault hrun h with ⟨fault, rfl, rfl, rfl⟩ | ⟨rfl, h⟩
  · exact assetExportEnds_of_refused hnone hdrawn hown hends
  obtain ⟨hopens, rfl⟩ := hends.of_none
  -- the placeholders
  obtain ⟨_, placeholders, hplaceholders, _, t, hends, hrun⟩ := exists_fillMissing
    settings.machine (assetsDir settings fileKey)
    (drawingPaths (assetsDir settings fileKey) drawings) document.fallbackIds
    { drawn with
      files := drawn.files.writeAll (drawingFiles (assetsDir settings fileKey) drawings) }
  have hplaceholders (file : Path × Content) : file ∈ placeholders ↔
      IsPlaceholder (assetsDir settings fileKey) drawings document.fallbackIds file := by
    rw [hplaceholders, IsPlaceholder, IsPlaceholder]
    simp only [isSome_lookup_drawings]
  have hfilled := areAssets_placeholders hplaceholders
  rcases bind_of_orFault hrun h with ⟨fault, rfl, rfl, rfl⟩ | ⟨rfl, h⟩
  · exact assetExportEnds_of_refused hown (by rw [hdrawn]) hfilled hends
  obtain ⟨hfillOpens, rfl⟩ := hends.of_none
  -- the bitmaps
  have hwritten := areAssets_append.mpr ⟨hown, hfilled⟩
  have hfiles : (drawn.files.writeAll (drawingFiles (assetsDir settings fileKey) drawings)).writeAll
      placeholders = before.files.writeAll
        (drawingFiles (assetsDir settings fileKey) drawings ++ placeholders) := by
    rw [Files.writeAll_append, hdrawn]
  rcases bind_eq.mp h with ⟨fault, hbitmaps, rfl⟩ | ⟨bitmaps, filled, hbitmaps, h⟩
  · exact assetExportEnds_of_unrendered hwritten hfiles hbitmaps
  obtain ⟨assets, hassets, fault?, t, hends, hrun⟩ := exists_writeBitmaps settings.machine
    (assetsDir settings fileKey) settings.bitmapScale bitmaps [] document.imageFillNodes filled
  obtain ⟨rfl, rfl⟩ := Prod.mk.inj (hrun.symm.trans h)
  cases fault? with
  | some fault =>
      exact assetExportEnds_of_refused hwritten ((files_of_exportNodes hbitmaps).trans hfiles)
        (areAssets_bitmapFiles fileKey _ _ _) hends
  | none =>
      obtain ⟨hbitmapOpens, rfl⟩ := hends.of_none
      exact .exported
        { drawings, drawn, placeholders, bitmaps, filled, assets
          drawings_eq := hdrawings
          mem_placeholders := hplaceholders
          bitmaps_eq := hbitmaps
          hasBitmap := fun asset hasset ↦ (hassets asset hasset).resolve_left List.not_mem_nil
          opens := List.forall_mem_append.mpr
            ⟨List.forall_mem_append.mpr ⟨hopens, hfillOpens⟩, hbitmapOpens⟩
          after_eq := rfl }

/-! ## Emptying, texts and the archive -/

theorem outcome_emptyDirectory (machine : Machine) (dir : Path) (s : Session) :
    (emptyDirectory machine dir).outcome s =
      match machine.emptying? dir with
      | none => (.ok (), { s with files := s.files.removeTree dir })
      | some (reason, stays) => (.error (.obstacle (.refusedChange reason)),
          { s with files := s.files.removeTreeBut stays dir }) := by
  unfold emptyDirectory
  cases machine.emptying? dir with
  | none => rfl
  | some refusal => rfl

/-- Whether these files are what is left of a text that is not written to its end: none, or a file
with its beginning. -/
def AreBegun (path : Path) (text : String) (files : Files) : Prop :=
  files = [] ∨ ∃ count, files = [(path, .text (String.ofList (text.toList.take count)))]

theorem outcome_writeText (machine : Machine) (path : Path) (text : String) (s : Session) :
    (writeText machine path text).outcome s =
        (.ok (), { s with files := s.files.write path (.text text) }) ∨
      ∃ reason begun, AreBegun path text begun ∧ (writeText machine path text).outcome s =
        (.error (.obstacle (.refusedChange reason)), { s with files := s.files.writeAll begun }) := by
  unfold writeText
  cases machine.writing? path text with
  | none =>
      dsimp only
      rw [writeData, outcome_writeFile]
      cases machine.opening? path with
      | none => exact Or.inl rfl
      | some reason => exact Or.inr ⟨reason, [], Or.inl rfl, rfl⟩
  | some refusal =>
      obtain ⟨reason, count⟩ := refusal
      dsimp only
      rw [outcome_bind, writeData, outcome_writeFile]
      cases machine.opening? path with
      | none => exact Or.inr ⟨reason, _, Or.inr ⟨count, rfl⟩, rfl⟩
      | some own => exact Or.inr ⟨own, [], Or.inl rfl, rfl⟩

/-- How it ends to write texts one after the other: all of them are written, or those before one
that is not written to its end. -/
inductive TextsEnd (dir : Path) (texts : List (String × String)) (s : Session) :
    Option Fault → Session → Prop
  | written : TextsEnd dir texts s none { s with files := s.files.writeAll (textFiles dir texts) }
  | refused {earlier later : List (String × String)} {text : String × String} {reason : String}
      {begun : Files} (htexts : texts = earlier ++ text :: later)
      (hbegun : AreBegun (dir ++ [text.1]) text.2 begun) :
      TextsEnd dir texts s (some (.obstacle (.refusedChange reason)))
        { s with files := s.files.writeAll (textFiles dir earlier ++ begun) }

/-- What has been written of a list of texts is some of them, and a beginning of one more. -/
theorem AreBegun.mem_append {dir : Path} {earlier : List (String × String)} {text : String × String}
    {begun : Files} {file : Path × Content} (h : AreBegun (dir ++ [text.1]) text.2 begun)
    (hmem : file ∈ textFiles dir earlier ++ begun) :
    (∃ own ∈ earlier, file = (dir ++ [own.1], .text own.2)) ∨
      ∃ count, file = (dir ++ [text.1], .text (String.ofList (text.2.toList.take count))) := by
  rcases List.mem_append.mp hmem with hmem | hmem
  · obtain ⟨own, hown, rfl⟩ := List.mem_map.mp hmem
    exact Or.inl ⟨own, hown, rfl⟩
  · rcases h with rfl | ⟨count, rfl⟩
    · exact absurd hmem List.not_mem_nil
    · exact Or.inr ⟨count, List.mem_singleton.mp hmem⟩

theorem TextsEnd.exists_written {dir : Path} {texts : List (String × String)} {s t : Session}
    {fault? : Option Fault} (h : TextsEnd dir texts s fault? t) :
    ∃ files, (∀ file ∈ files, ∃ text ∈ texts, file.1 = dir ++ [text.1]) ∧
      t = { s with files := s.files.writeAll files } := by
  cases h with
  | written =>
      refine ⟨_, fun file hfile ↦ ?_, rfl⟩
      obtain ⟨text, htext, rfl⟩ := List.mem_map.mp hfile
      exact ⟨text, htext, rfl⟩
  | refused htexts hbegun =>
      refine ⟨_, fun file hfile ↦ ?_, rfl⟩
      rcases hbegun.mem_append hfile with ⟨own, hown, rfl⟩ | ⟨count, rfl⟩
      · exact ⟨own, by simp [htexts, hown], rfl⟩
      · exact ⟨_, by simp [htexts], rfl⟩

theorem exists_writeTexts (machine : Machine) (dir : Path) (texts : List (String × String))
    (s : Session) : ∃ fault? t, TextsEnd dir texts s fault? t ∧
      (writeTexts machine dir texts).outcome s = (orFault () fault?, t) := by
  induction texts generalizing s with
  | nil => exact ⟨none, s, .written, rfl⟩
  | cons text rest ih =>
      change ∃ fault? t, _ ∧ (writeText machine (dir ++ [text.1]) text.2 >>= fun _ ↦
        writeTexts machine dir rest).outcome s = _
      rw [outcome_bind]
      rcases outcome_writeText machine (dir ++ [text.1]) text.2 s with
        hrun | ⟨reason, begun, hbegun, hrun⟩
      · rw [hrun]
        obtain ⟨fault?, t, hends, hrest⟩ := ih
          { s with files := s.files.write (dir ++ [text.1]) (.text text.2) }
        refine ⟨fault?, t, ?_, hrest⟩
        cases hends with
        | written => exact .written
        | @refused earlier later own _ begun htexts hbegun =>
            have hcons : text :: rest = (text :: earlier) ++ own :: later := by
              rw [htexts]
              rfl
            exact .refused hcons hbegun
      · rw [hrun]
        exact ⟨_, _, .refused (List.nil_append _).symm hbegun, rfl⟩

/-- How it ends to put an archive of a directory in the place of the one before: it may be left as
it was, be gone, or be written in part. -/
inductive ArchiveEnds (settings : Settings) (dir : Path) (s : Session) :
    Option Fault → Session → Prop
  | kept (reason : String) : ArchiveEnds settings dir s (some (.obstacle (.refusedChange reason))) s
  | gone (reason : String) :
      ArchiveEnds settings dir s (some (.obstacle (.refusedChange reason)))
        { s with files := s.files.erase (Path.ofText settings.zipPath) }
  | begun (reason : String) (count : Nat) :
      ArchiveEnds settings dir s (some (.obstacle (.refusedChange reason)))
        { s with
          files := s.files.putArchive (Path.ofText settings.zipPath)
            (((s.files.erase (Path.ofText settings.zipPath)).listing dir).take count) }
  | written :
      ArchiveEnds settings dir s none
        { s with
          files := s.files.putArchive (Path.ofText settings.zipPath)
            ((s.files.erase (Path.ofText settings.zipPath)).listing dir) }

section ArchiveEnds

variable {dir path : Path} {fault? : Option Fault}

theorem ArchiveEnds.exists_files (h : ArchiveEnds settings dir before fault? after) :
    ∃ files, after = { before with files } := by
  cases h with
  | kept _ | gone _ | begun _ _ | written => exact ⟨_, rfl⟩

/-- The archive is the only file that may have changed. -/
theorem ArchiveEnds.lookup_of_ne (h : ArchiveEnds settings dir before fault? after)
    (hzip : path ≠ Path.ofText settings.zipPath) :
    after.files.lookup path = before.files.lookup path := by
  cases h with
  | kept _ => rfl
  | gone _ => exact (Files.lookup_erase _ _ _).trans (if_neg hzip)
  | begun _ _ | written => exact (Files.lookup_putArchive _ _ _ _).trans (if_neg hzip)

/-- No text has been written. -/
theorem ArchiveEnds.mem_of_text {text : String} (h : ArchiveEnds settings dir before fault? after)
    (hmem : (path, Content.text text) ∈ after.files) :
    (path, Content.text text) ∈ before.files := by
  have herase : ∀ file ∈ before.files.erase (Path.ofText settings.zipPath), file ∈ before.files :=
    fun file hfile ↦ (List.mem_filter.mp hfile).1
  cases h with
  | kept _ => exact hmem
  | gone _ => exact herase _ hmem
  | begun _ _ | written =>
      rcases Files.mem_write hmem with hfile | hbefore
      · exact nomatch (Prod.mk.inj hfile).2
      · exact herase _ hbefore

end ArchiveEnds

theorem exists_archiveSite (settings : Settings) (dir : Path) (s : Session) :
    ∃ fault? t, ArchiveEnds settings dir s fault? t ∧
      (archiveSite settings dir).outcome s = (orFault () fault?, t) := by
  unfold archiveSite removeFile
  dsimp only
  rw [outcome_bind]
  cases settings.machine.removing? (Path.ofText settings.zipPath) with
  | some reason => exact ⟨_, s, .kept reason, rfl⟩
  | none =>
      change ∃ fault? t, _ ∧ (writeArchive settings.machine (Path.ofText settings.zipPath)
        dir).outcome { s with files := s.files.erase (Path.ofText settings.zipPath) } = _
      unfold writeArchive
      cases settings.machine.archiving? (Path.ofText settings.zipPath) with
      | none =>
          dsimp only
          rw [outcome_writeFile]
          cases settings.machine.opening? (Path.ofText settings.zipPath) with
          | none => exact ⟨_, _, .written, rfl⟩
          | some reason => exact ⟨_, _, .gone reason, rfl⟩
      | some refusal =>
          obtain ⟨reason, count⟩ := refusal
          dsimp only
          rw [outcome_bind, outcome_writeFile]
          cases settings.machine.opening? (Path.ofText settings.zipPath) with
          | none => exact ⟨_, _, .begun reason count, rfl⟩
          | some own => exact ⟨_, _, .gone own, rfl⟩

/-! ## Answers -/

namespace Assembly

variable (steps : Assembly settings request before)

def answerWith (name lastModified : Option String) : ConversionAnswer where
  fileKey := steps.fileKey
  name := name
  lastModified := lastModified
  stats := steps.document.tally.stats
  counts := Manifest.countStrategies steps.document.scene
  warnings := steps.document.tally.warnings
  downloadUrl := settings.publicBaseUrl ++ "/download"

/-- The answer when all files have been written. -/
def answer : Except Fault ConversionAnswer := do
  return steps.answerWith (← optionalText (steps.json.attributes.get "name"))
    (← optionalText steps.lastModified)

theorem fileKey_of_answer {answer : ConversionAnswer} (h : steps.answer = .ok answer) :
    steps.fileKey = answer.fileKey := by
  obtain ⟨name, _, h⟩ := Outcome.bind_eq_ok.mp h
  obtain ⟨lastModified, _, h⟩ := Outcome.bind_eq_ok.mp h
  rw [← Outcome.pure_eq_ok.mp h]
  rfl

end Assembly

theorem outcome_answer (name lastModified : Except Fault (Option String))
    (answer : Option String → Option String → ConversionAnswer) (s : Session) :
    (do return answer (← Action.ofExcept name) (← Action.ofExcept lastModified) :
      Action ConversionAnswer).outcome s = (do return answer (← name) (← lastModified), s) := by
  cases name with
  | error fault => rfl
  | ok name =>
      cases lastModified with
      | error fault => rfl
      | ok lastModified => rfl

/-! ## Conversions -/

/-- How the conversion of a file can end. -/
inductive ConversionEnds (settings : Settings) (request : ConversionRequest)
    (before after : Session) : Except Fault ConversionAnswer → Prop
  /-- No document has been accepted, and no file has been touched. -/
  | unaccepted {fault : Fault} (hfiles : after.files = before.files) :
      ConversionEnds settings request before after (.error fault)
  /-- The directory could not be emptied. -/
  | unemptied {fileKey : String} {json : Json} {fetched : Session}
      {document : ClassifiedDocument} {reason : String} {stays : Path → Bool}
      (hkey : fileKey? request.figmaUrl = some fileKey)
      (hfetched : (getDocument settings fileKey request.useCache).outcome before =
        (.ok json, fetched))
      (hdocument : classifyDocument settings.policy json = .ok document)
      (hfiles : after.files = fetched.files.removeTreeBut stays (siteDir settings fileKey)) :
      ConversionEnds settings request before after (.error (.obstacle (.refusedChange reason)))
  /-- The directory has been emptied, and the export of the assets has been stopped. -/
  | unexported {fileKey : String} {json lastModified : Json} {fetched : Session}
      {document : ClassifiedDocument} {fault : Fault}
      (hkey : fileKey? request.figmaUrl = some fileKey)
      (hfetched : (getDocument settings fileKey request.useCache).outcome before =
        (.ok json, fetched))
      (hdocument : classifyDocument settings.policy json = .ok document)
      (hexport : AssetExportEnds settings fileKey document lastModified
        { fetched with files := fetched.files.removeTree (siteDir settings fileKey) } after
          (.error fault)) :
      ConversionEnds settings request before after (.error fault)
  /-- The assets have been written, and the document could not be emitted. -/
  | unemitted {fileKey : String} {json lastModified : Json} {fetched : Session}
      {document : ClassifiedDocument} {fault : Fault}
      (hkey : fileKey? request.figmaUrl = some fileKey)
      (hfetched : (getDocument settings fileKey request.useCache).outcome before =
        (.ok json, fetched))
      (hdocument : classifyDocument settings.policy json = .ok document)
      (exports : AssetExport settings fileKey document lastModified
        { fetched with files := fetched.files.removeTree (siteDir settings fileKey) } after)
      (hemit : emit (pageTitle fileKey json.attributes) exports.assets document = .error fault) :
      ConversionEnds settings request before after (.error fault)
  /-- One of the texts of the site could not be written to its end. -/
  | unwritten {fault : Fault} (steps : Assembly settings request before)
      (htexts : TextsEnd steps.dir (siteTexts steps.emission steps.manifest) steps.exported
        (some fault) after) :
      ConversionEnds settings request before after (.error fault)
  /-- The site has been written, and its archive could not be completed. -/
  | unarchived {fault : Fault} (steps : Assembly settings request before)
      (harchive : ArchiveEnds settings steps.dir
        { steps.exported with files := steps.finished } (some fault) after) :
      ConversionEnds settings request before after (.error fault)
  /-- All files have been written, and only the answer is left. -/
  | written {result : Except Fault ConversionAnswer}
      (run : Conversion settings request before after) (hanswer : run.answer = result) :
      ConversionEnds settings request before after result

theorem conversionEnds_convertFile {fileKey : String} {result : Except Fault ConversionAnswer}
    (hkey : fileKey? request.figmaUrl = some fileKey)
    (h : (convertFile settings fileKey request.useCache).outcome before = (result, after)) :
    ConversionEnds settings request before after result := by
  rcases bind_eq.mp h with ⟨fault, hget, rfl⟩ | ⟨json, fetched, hget, h⟩
  · exact .unaccepted (files_of_getDocument hget)
  have hkept := files_of_getDocument hget
  rcases bind_eq.mp h with ⟨fault, hfield, rfl⟩ | ⟨lastModified, s₁, hfield, h⟩
  · obtain ⟨_, rfl⟩ := ofExcept_eq_error.mp hfield
    exact .unaccepted hkept
  obtain ⟨hmodified, rfl⟩ := ofExcept_eq_ok.mp hfield
  rcases bind_eq.mp h with ⟨fault, hclassify, rfl⟩ | ⟨document, s₂, hclassify, h⟩
  · obtain ⟨_, rfl⟩ := ofExcept_eq_error.mp hclassify
    exact .unaccepted hkept
  obtain ⟨hdocument, rfl⟩ := ofExcept_eq_ok.mp hclassify
  rw [outcome_bind, outcome_emptyDirectory] at h
  cases hemptied : settings.machine.emptying? (siteDir settings fileKey) with
  | some refusal =>
      rw [hemptied] at h
      obtain ⟨rfl, rfl⟩ := Prod.mk.inj h
      exact .unemptied hkey hget hdocument rfl
  | none =>
  rw [hemptied] at h
  -- from here on the directory is empty
  rcases bind_eq.mp h with ⟨fault, hexport, rfl⟩ | ⟨assets, exported, hexport, h⟩
  · exact .unexported hkey hget hdocument (assetExportEnds_exportAssets hexport)
  obtain _ | ⟨exports⟩ := assetExportEnds_exportAssets hexport
  rcases bind_eq.mp h with ⟨fault, hemit, rfl⟩ | ⟨emission, s₅, hemit, h⟩
  · obtain ⟨hemission, rfl⟩ := ofExcept_eq_error.mp hemit
    exact .unemitted hkey hget hdocument exports hemission
  obtain ⟨hemission, rfl⟩ := ofExcept_eq_ok.mp hemit
  let steps : Assembly settings request before :=
    { fileKey, json, fetched, lastModified, document, exported, exports, emission
      key_eq := hkey
      getDocument_eq := hget
      lastModified_eq := hmodified
      classify_eq := hdocument
      emptied := hemptied
      emit_eq := hemission }
  obtain ⟨_, t, hends, hrun⟩ := exists_writeTexts settings.machine steps.dir
    (siteTexts steps.emission steps.manifest) exported
  rcases bind_of_orFault hrun h with ⟨fault, rfl, rfl, rfl⟩ | ⟨rfl, h⟩
  · exact .unwritten steps hends
  cases hends
  obtain ⟨_, t, hends, hrun⟩ := exists_archiveSite settings steps.dir
    { steps.exported with files := steps.finished }
  rcases bind_of_orFault hrun h with ⟨fault, rfl, rfl, rfl⟩ | ⟨rfl, h⟩
  · exact .unarchived steps hends
  cases hends
  obtain ⟨hanswer, rfl⟩ := Prod.mk.inj ((outcome_answer _ _ steps.answerWith _).symm.trans h)
  exact .written { steps with after_files := rfl } hanswer

theorem run_convert_of_none (h : fileKey? request.figmaUrl = none) (s : Session) :
    (convert settings request).run s = (.error .invalidUrl, s) := by
  unfold convert
  simp only [h]
  rfl

/-- The fault of a conversion becomes a rejection. -/
theorem run_convert_of_some {fileKey : String} (hkey : fileKey? request.figmaUrl = some fileKey)
    (s : Session) :
    (convert settings request).run s =
      (((convertFile settings fileKey request.useCache).outcome s).1.mapError .ofFault,
        ((convertFile settings fileKey request.useCache).outcome s).2) := by
  unfold convert outcome
  simp only [hkey]
  rw [StateT.run_bind]
  cases (convertFile settings fileKey request.useCache).run.run s with
  | mk result after =>
      cases result with
      | ok answer => rfl
      | error fault => rfl

/-- A conversion is turned down for the lack of a key, or it ends as the conversion of its file. -/
theorem run_convert_eq {result : Except Rejection ConversionAnswer}
    (h : (convert settings request).run before = (result, after)) :
    (result = .error .invalidUrl ∧ before = after) ∨
      ∃ own, ConversionEnds settings request before after own ∧ own.mapError .ofFault = result := by
  cases hkey : fileKey? request.figmaUrl with
  | none =>
      rw [run_convert_of_none hkey] at h
      obtain ⟨hresult, hafter⟩ := Prod.mk.inj h
      exact Or.inl ⟨hresult.symm, hafter⟩
  | some fileKey =>
      rw [run_convert_of_some hkey] at h
      obtain ⟨hresult, hafter⟩ := Prod.mk.inj h
      exact Or.inr ⟨_, conversionEnds_convertFile hkey (Prod.ext rfl hafter), hresult⟩

theorem exists_conversion {answer : ConversionAnswer}
    (h : (convert settings request).run before = (.ok answer, after)) :
    ∃ run : Conversion settings request before after, run.fileKey = answer.fileKey := by
  rcases run_convert_eq h with ⟨hresult, _⟩ | ⟨own, hends, hresult⟩
  · exact nomatch hresult
  cases own with
  | error fault => exact nomatch hresult
  | ok own =>
      cases hends with
      | written run hanswer =>
          obtain rfl := Except.ok.inj hresult
          exact ⟨run, run.fileKey_of_answer hanswer⟩

end DesignToWeb.Service
