import DesignToWeb.Proofs.Service.Caching
import DesignToWeb.Proofs.Service.Failed

/-!
# Conversions that are repeated

A conversion that is repeated while the document has not changed asks nothing but
whether it has changed, and leaves the same site.  The drawings may come in another
order, which shows where two of them share a file.
-/

namespace DesignToWeb.Service

open Service.Action

variable {settings : Settings} {s t : Session} {images : List (String × String)}

/-! ## Almost the same files -/

/-- Whether two sessions have the same files, but for some paths. -/
def SameFilesBut (apart : Path → Prop) (s t : Session) : Prop :=
  ∀ path, ¬ apart path → s.files.lookup path = t.files.lookup path

theorem SameFilesBut.write {apart : Path → Prop} (h : SameFilesBut apart s t) (path : Path)
    (content : Content) :
    SameFilesBut apart { s with files := s.files.write path content }
      { t with files := t.files.write path content } := by
  intro other hother
  rw [Files.lookup_write, Files.lookup_write, h other hother]

theorem inStep_writeData_of_same (apart : Path → Prop) (machine : Machine) (path : Path)
    (data : String) :
    InStep (SameFilesBut apart) (writeData machine path data) (writeData machine path data) := by
  intro u v huv
  rw [writeData, outcome_writeFile, outcome_writeFile]
  cases machine.opening? path with
  | none => exact ⟨rfl, huv.write path (.text data)⟩
  | some reason => exact ⟨rfl, huv⟩

theorem inStep_removeFile_of_same (apart : Path → Prop) (machine : Machine) (path : Path) :
    InStep (SameFilesBut apart) (removeFile machine path) (removeFile machine path) := by
  unfold removeFile
  split
  · refine fun u v huv ↦ ⟨rfl, fun other hother ↦ ?_⟩
    change (u.files.erase path).lookup other = (v.files.erase path).lookup other
    rw [Files.lookup_erase, Files.lookup_erase, huv other hother]
  · exact .throw _

/-- What is written to one of the paths that do not count need not be the same. -/
theorem inStep_writeFile_of_apart {apart : Path → Prop} {path : Path} (hpath : apart path)
    (machine : Machine) (content : Files → Content) :
    InStep (SameFilesBut apart) (writeFile machine path content)
      (writeFile machine path content) := by
  unfold writeFile
  split
  · refine fun u v huv ↦ ⟨rfl, fun other hother ↦ ?_⟩
    have hne : other ≠ path := by
      rintro rfl
      exact hother hpath
    change (u.files.write path (content u.files)).lookup other =
      (v.files.write path (content v.files)).lookup other
    rw [Files.lookup_write, Files.lookup_write, if_neg hne, if_neg hne, huv other hother]
  · exact .throw _

theorem inStep_archiveSite_of_apart {apart : Path → Prop}
    (hzip : apart (Path.ofText settings.zipPath)) (dir : Path) :
    InStep (SameFilesBut apart) (archiveSite settings dir) (archiveSite settings dir) := by
  refine .bind (inStep_removeFile_of_same apart _ _) fun _ ↦ ?_
  unfold writeArchive
  split
  · exact inStep_writeFile_of_apart hzip _ _
  · exact .bind (inStep_writeFile_of_apart hzip _ _) fun _ ↦ .throw _

/-! ## What is left when the renders are there -/

/-- The end of a conversion, when all of its renders are there. -/
def finishConversion (settings : Settings) (fileKey : String) (json lastModified : Json)
    (document : ClassifiedDocument) (bitmaps : List (String × String)) :
    Action ConversionAnswer := do
  let assets ← writeBitmaps settings.machine (assetsDir settings fileKey) settings.bitmapScale
    bitmaps [] document.imageFillNodes
  let emission ← Action.ofExcept (emit (pageTitle fileKey json.attributes) assets document)
  writeTexts settings.machine (siteDir settings fileKey)
    (siteTexts emission (Manifest.build fileKey json.attributes document.scene document.tally))
  archiveSite settings (siteDir settings fileKey)
  return { fileKey
           name := ← Action.ofExcept (optionalText (json.attributes.get "name"))
           lastModified := ← Action.ofExcept (optionalText lastModified)
           stats := document.tally.stats
           counts := Manifest.countStrategies document.scene
           warnings := document.tally.warnings
           downloadUrl := settings.publicBaseUrl ++ "/download" }

section Finish

variable {fileKey : String} {json lastModified : Json} {document : ClassifiedDocument}
  {drawings bitmaps : List (String × String)} {fetched drawn filled : Session}

/-- Where nothing is missing, nothing is filled in. -/
theorem fillMissing_of_complete {machine : Machine} {dir : Path} {paths : AssetPaths}
    {ids : List String} (h : ∀ id ∈ ids, (paths.lookup id).isSome = true) :
    fillMissing dir paths ids machine = pure paths := by
  induction ids with
  | nil => rfl
  | cons id rest ih =>
      obtain ⟨hid, hrest⟩ := List.forall_mem_cons.mp h
      rw [fillMissing, if_pos hid, ih hrest]

theorem outcome_exportFallbacks_of_opens {nodeIds : List String} {dir : Path}
    (hdrawings : (exportNodes settings fileKey nodeIds "svg" 1 lastModified).outcome s =
      (.ok drawings, drawn)) (hopens : Opens settings.machine (drawingFiles dir drawings)) :
    (exportFallbacks settings fileKey nodeIds dir lastModified).outcome s =
      (.ok (drawingPaths dir drawings),
        { drawn with files := drawn.files.writeAll (drawingFiles dir drawings) }) := by
  obtain ⟨fault?, t, hends, hrun⟩ := exists_writeRenders settings.machine dir drawings drawn
  obtain ⟨rfl, rfl⟩ := hends.of_opens hopens
  rw [exportFallbacks, outcome_bind, hdrawings]
  exact hrun

theorem outcome_exportAssets_of_complete
    (hdrawings : (exportNodes settings fileKey document.fallbackIds "svg" 1 lastModified).outcome s =
      (.ok drawings, drawn))
    (hopens : Opens settings.machine (drawingFiles (assetsDir settings fileKey) drawings))
    (hall : ∀ id ∈ document.fallbackIds, (drawings.lookup id).isSome = true)
    (hbitmaps : (exportNodes settings fileKey (document.imageFillNodes.map (·.1)) "png"
      settings.bitmapScale lastModified).outcome
        { drawn with
          files := drawn.files.writeAll (drawingFiles (assetsDir settings fileKey) drawings) } =
          (.ok bitmaps, filled)) :
    (exportAssets settings fileKey document lastModified).outcome s =
      (writeBitmaps settings.machine (assetsDir settings fileKey) settings.bitmapScale bitmaps []
        document.imageFillNodes).outcome filled := by
  -- every node has its drawing, so no placeholder is written
  have hfill : fillMissing (assetsDir settings fileKey)
      (drawingPaths (assetsDir settings fileKey) drawings) document.fallbackIds settings.machine =
        pure _ :=
    fillMissing_of_complete fun id hid ↦ (isSome_lookup_drawings _ drawings id).trans (hall id hid)
  rw [exportAssets]
  change (exportFallbacks settings fileKey document.fallbackIds (assetsDir settings fileKey)
    lastModified >>= _).outcome s = _
  rw [outcome_bind, outcome_exportFallbacks_of_opens hdrawings hopens]
  dsimp only
  change (fillMissing (assetsDir settings fileKey) _ _ _ >>= _).outcome _ = _
  rw [hfill, outcome_bind]
  change (exportBitmaps settings fileKey document.imageFillNodes (assetsDir settings fileKey)
    settings.bitmapScale lastModified).outcome _ = _
  rw [exportBitmaps, outcome_bind, hbitmaps]

theorem outcome_convertFile_of_complete {useCache : Bool}
    (hget : (getDocument settings fileKey useCache).outcome s = (.ok json, fetched))
    (hfield : field json "lastModified" = .ok lastModified)
    (hclassify : classifyDocument settings.policy json = .ok document)
    (hemptied : settings.machine.emptying? (siteDir settings fileKey) = none)
    (hdrawings : (exportNodes settings fileKey document.fallbackIds "svg" 1 lastModified).outcome
      { fetched with files := fetched.files.removeTree (siteDir settings fileKey) } =
        (.ok drawings, drawn))
    (hopens : Opens settings.machine (drawingFiles (assetsDir settings fileKey) drawings))
    (hall : ∀ id ∈ document.fallbackIds, (drawings.lookup id).isSome = true)
    (hbitmaps : (exportNodes settings fileKey (document.imageFillNodes.map (·.1)) "png"
      settings.bitmapScale lastModified).outcome
        { drawn with
          files := drawn.files.writeAll (drawingFiles (assetsDir settings fileKey) drawings) } =
          (.ok bitmaps, filled)) :
    (convertFile settings fileKey useCache).outcome s =
      (finishConversion settings fileKey json lastModified document bitmaps).outcome filled := by
  have hexport := outcome_exportAssets_of_complete hdrawings hopens hall hbitmaps
  rw [convertFile, outcome_bind, hget]
  dsimp only
  rw [outcome_bind, outcome_ofExcept, hfield]
  dsimp only
  rw [outcome_bind, outcome_ofExcept, hclassify]
  dsimp only
  rw [outcome_bind, outcome_emptyDirectory, hemptied]
  change (exportAssets settings fileKey document lastModified >>= _).outcome
    { fetched with files := fetched.files.removeTree (siteDir settings fileKey) } = _
  rw [outcome_bind, hexport, finishConversion, outcome_bind]

theorem outcome_finishConversion_eq_ok {answer : ConversionAnswer}
    (h : (finishConversion settings fileKey json lastModified document bitmaps).outcome s =
      (.ok answer, t)) :
    answer.fileKey = fileKey ∧ optionalText lastModified = .ok answer.lastModified := by
  obtain ⟨_, _, _, h⟩ := bind_eq_ok.mp h
  obtain ⟨_, _, _, h⟩ := bind_eq_ok.mp h
  obtain ⟨_, _, _, h⟩ := bind_eq_ok.mp h
  obtain ⟨_, _, _, h⟩ := bind_eq_ok.mp h
  obtain ⟨_, _, _, h⟩ := bind_eq_ok.mp h
  obtain ⟨time, _, htime, h⟩ := bind_eq_ok.mp h
  rw [← Except.ok.inj (Prod.mk.inj h).1]
  exact ⟨rfl, (ofExcept_eq_ok.mp htime).1⟩

theorem finishConversion_inStep {R : Session → Session → Prop}
    (h : WritesInStep R settings fileKey)
    (harchive : InStep R (archiveSite settings (siteDir settings fileKey))
      (archiveSite settings (siteDir settings fileKey))) :
    InStep R (finishConversion settings fileKey json lastModified document bitmaps)
      (finishConversion settings fileKey json lastModified document bitmaps) := by
  refine .bind (h.writeBitmaps _ _ _ _) fun assets ↦ ?_
  refine .bind (.ofExcept _) fun emission ↦ ?_
  refine .bind (h.writeTexts fun _ ↦ isPlainName_of_mem_siteTexts) fun _ ↦ ?_
  refine .bind harchive fun _ ↦ ?_
  exact .bind (.ofExcept _) fun _ ↦ .bind (.ofExcept _) fun _ ↦ .pure _

def SameButFiles (s t : Session) : Prop :=
  ({ s with files := [] } : Session) = { t with files := [] }

theorem SameButFiles.eq (h : SameButFiles s t) : s = { t with files := s.files } := by
  obtain ⟨replies, requests, waits, store, files⟩ := s
  obtain ⟨replies', requests', waits', store', files'⟩ := t
  obtain ⟨rfl, rfl, rfl, rfl, _⟩ := Session.mk.inj h
  rfl

theorem SameButFiles.store_eq (h : SameButFiles s t) : s.store = t.store :=
  (Session.mk.inj h).2.2.2.1

variable (settings fileKey json lastModified document bitmaps) in
/-- The end of a conversion touches nothing but files. -/
theorem sameButFiles_finishConversion (s : Session) :
    SameButFiles
      ((finishConversion settings fileKey json lastModified document bitmaps).outcome s).2 s := by
  have hfiles (f : Files → Files) :
      InStep (Both (SameButFiles · s)) (modifyFiles f) (modifyFiles f) := .of_keeps fun _ ht ↦ ht
  have hwrites : WritesInStep (Both (SameButFiles · s)) settings fileKey :=
    ⟨fun _ _ _ ↦ inStep_writeFile hfiles _ _ _⟩
  exact (finishConversion_inStep hwrites (inStep_archiveSite hfiles settings _)).keeps rfl

/-- In sessions with almost the same files, conversions come to the same end. -/
theorem outcome_finishConversion_of_same {apart : Path → Prop} (hsame : SameFilesBut apart s t)
    (hzip : apart (Path.ofText settings.zipPath)) {answer : ConversionAnswer} {after : Session}
    (h : (finishConversion settings fileKey json lastModified document bitmaps).outcome s =
      (.ok answer, after)) :
    SameButFiles after s ∧
      ∃ files, (finishConversion settings fileKey json lastModified document bitmaps).outcome t =
          (.ok answer, { t with files }) ∧
        ∀ path, ¬ apart path → files.lookup path = after.files.lookup path := by
  have hsteps : InStep (SameFilesBut apart)
      (finishConversion settings fileKey json lastModified document bitmaps)
      (finishConversion settings fileKey json lastModified document bitmaps) :=
    finishConversion_inStep ⟨fun path data _ ↦ inStep_writeData_of_same apart _ _ data⟩
      (inStep_archiveSite_of_apart hzip _)
  obtain ⟨hresult, hfiles⟩ := hsteps s t hsame
  have hkept := sameButFiles_finishConversion settings fileKey json lastModified document bitmaps s
  have hagain := sameButFiles_finishConversion settings fileKey json lastModified document bitmaps t
  rw [h] at hresult hfiles hkept
  exact ⟨hkept, _, Prod.ext hresult.symm hagain.eq, fun path hpath ↦ (hfiles path hpath).symm⟩

/-- Of the bitmaps, only those count that the nodes are looked up with. -/
theorem writeBitmaps_congr {rendered others : List (String × String)}
    (h : SameRenders rendered others) (machine : Machine) (dir : Path) (scale : Int)
    (assets : List (String × Css.ImageAsset)) (nodes : List (String × ImageFill)) :
    writeBitmaps machine dir scale rendered assets nodes =
      writeBitmaps machine dir scale others assets nodes := by
  induction nodes generalizing assets with
  | nil => rfl
  | cons node rest ih =>
      obtain ⟨id, fill⟩ := node
      simp only [writeBitmaps, lookup_eq_of_ofNode_eq (h id), ih]

theorem finishConversion_congr {others : List (String × String)} (h : SameRenders bitmaps others) :
    finishConversion settings fileKey json lastModified document bitmaps =
      finishConversion settings fileKey json lastModified document others := by
  rw [finishConversion, finishConversion, writeBitmaps_congr h]

end Finish

/-! ## Drawings that share a file -/

/-- Whether two different nodes have their drawings in one file. -/
def SharesDrawing (dir : Path) (ids : List String) (path : Path) : Prop :=
  ∃ i ∈ ids, ∃ j ∈ ids, i ≠ j ∧ drawingPath dir i = path ∧ drawingPath dir j = path

section Drawings

variable {dir path : Path} {ids : List String} {others : List (String × String)}

/-- What is written to a file that is not shared comes from one node. -/
theorem filter_drawingFiles_of_mem {id : String} (hid : id ∈ ids) (hpath : drawingPath dir id = path)
    (hshared : ¬ SharesDrawing dir ids path) (himages : ∀ image ∈ images, image.1 ∈ ids) :
    (drawingFiles dir images).filter (path == ·.1) = drawingFiles dir (ofNode id images) := by
  rw [drawingFiles, List.filter_map, drawingFiles, ofNode]
  refine congrArg _ (List.filter_congr fun image himage ↦ ?_)
  change (path == drawingPath dir image.1) = (id == image.1)
  by_cases hsame : id = image.1
  · rw [← hsame, hpath, BEq.rfl, BEq.rfl]
  · rw [beq_false_of_ne hsame, beq_false_of_ne fun hother ↦ hshared
      ⟨id, hid, image.1, himages image himage, hsame, hpath, hother.symm⟩]

theorem filter_drawingFiles_of_not (hpath : ∀ id ∈ ids, drawingPath dir id ≠ path)
    (himages : ∀ image ∈ images, image.1 ∈ ids) :
    (drawingFiles dir images).filter (path == ·.1) = [] := by
  refine List.filter_eq_nil_iff.mpr fun file hfile ↦ ?_
  obtain ⟨image, himage, rfl⟩ := List.mem_map.mp hfile
  exact fun heq ↦ hpath image.1 (himages image himage) (eq_of_beq heq).symm

/-- The order of the drawings does not matter where no file is shared. -/
theorem lookup_writeAll_drawingFiles (hsame : SameRenders images others)
    (himages : ∀ image ∈ images, image.1 ∈ ids) (hothers : ∀ image ∈ others, image.1 ∈ ids)
    (hshared : ¬ SharesDrawing dir ids path) {files more : Files}
    (hfiles : files.lookup path = more.lookup path) :
    (files.writeAll (drawingFiles dir images)).lookup path =
      (more.writeAll (drawingFiles dir others)).lookup path := by
  rw [Files.lookup_writeAll, Files.lookup_writeAll, hfiles]
  by_cases hpath : ∃ id ∈ ids, drawingPath dir id = path
  · obtain ⟨id, hid, hpath⟩ := hpath
    rw [filter_drawingFiles_of_mem hid hpath hshared himages,
      filter_drawingFiles_of_mem hid hpath hshared hothers, hsame id]
  · have hnone (id : String) (hid : id ∈ ids) : drawingPath dir id ≠ path :=
      fun heq ↦ hpath ⟨id, hid, heq⟩
    rw [filter_drawingFiles_of_not hnone himages, filter_drawingFiles_of_not hnone hothers]

end Drawings

/-! ## Conversions that are repeated -/

theorem optionalText_eq_ok_some {field : Json} {text : String} :
    optionalText field = .ok (some text) ↔ field = .str text := by
  cases field with
  | null => simp [optionalText]
  | str own => simp [optionalText]
  | _ => simp [optionalText]

theorem eq_ok_of_mapError_eq_ok {α ε ε' : Type} {f : ε → ε'} {x : Except ε α} {a : α}
    (h : x.mapError f = .ok a) : x = .ok a := by
  cases x with
  | ok own => exact congrArg Except.ok (Except.ok.inj h)
  | error fault => exact nomatch h

/-- Whether all renders that a conversion asked for have come. -/
structure Conversion.IsComplete {request : ConversionRequest} {before after : Session}
    (run : Conversion settings request before after) : Prop where
  drawings : ∀ id ∈ run.document.fallbackIds, (run.exports.drawings.lookup id).isSome = true
  bitmaps : ∀ node ∈ run.document.imageFillNodes,
    (run.exports.bitmaps.lookup node.1).isSome = true

namespace Conversion

variable {request : ConversionRequest} {before after : Session}
  (run : Conversion settings request before after)

/-- The exports of a conversion as calls. -/
def svgCall : RenderCall := ⟨run.fileKey, run.document.fallbackIds, "svg", 1, run.lastModified⟩

def pngCall : RenderCall :=
  ⟨run.fileKey, run.document.imageFillNodes.map (·.1), "png", settings.bitmapScale,
    run.lastModified⟩

def assetsDir : Path := Service.assetsDir settings run.fileKey

theorem run_svgCall : run.svgCall.run settings
    { run.fetched with files := run.fetched.files.removeTree run.dir } =
      (.ok run.exports.drawings, run.exports.drawn) :=
  run.exports.drawings_eq

theorem run_pngCall
    (h : ∀ id ∈ run.document.fallbackIds, (run.exports.drawings.lookup id).isSome = true) :
    run.pngCall.run settings
      { run.exports.drawn with
        files := run.exports.drawn.files.writeAll
          (drawingFiles run.assetsDir run.exports.drawings) } =
      (.ok run.exports.bitmaps, run.exports.filled) := by
  have hnone : run.exports.placeholders = [] := by
    refine List.eq_nil_iff_forall_not_mem.mpr fun file hfile ↦ ?_
    obtain ⟨id, hid, hmissing, _⟩ := (run.exports.mem_placeholders file).mp hfile
    rw [h id hid] at hmissing
    exact Bool.noConfusion hmissing
  have hbitmaps := run.exports.bitmaps_eq
  rw [hnone] at hbitmaps
  exact hbitmaps

theorem opens_drawings :
    Opens settings.machine (drawingFiles run.assetsDir run.exports.drawings) :=
  fun file hfile ↦ run.exports.opens file (List.mem_append_left _ (List.mem_append_left _ hfile))

section Complete

variable (hcomplete : run.IsComplete)

include hcomplete

theorem outcome_convertFile : (convertFile settings run.fileKey request.useCache).outcome before =
    (finishConversion settings run.fileKey run.json run.lastModified run.document
      run.exports.bitmaps).outcome run.exports.filled :=
  outcome_convertFile_of_complete run.getDocument_eq run.lastModified_eq run.classify_eq run.emptied
    run.run_svgCall run.opens_drawings hcomplete.drawings (run.run_pngCall hcomplete.drawings)

/-- What has been drawn and rendered stands in the store when all renders are there. -/
theorem sameRenders_filled {version : String} (hversion : run.lastModified = .str version) :
    SameRenders (run.svgCall.stored run.exports.filled) run.exports.drawings ∧
      SameRenders (run.pngCall.stored run.exports.filled) run.exports.bitmaps := by
  refine ⟨fun id ↦ ?_, sameRenders_stored_of_run hversion (run.run_pngCall hcomplete.drawings)⟩
  have hformat : run.pngCall.format ≠ run.svgCall.format := (by decide : "png" ≠ "svg")
  obtain ⟨fetched, _, _, hstore⟩ := exists_fetched_of_exportNodes (run.run_pngCall hcomplete.drawings)
  rw [RenderCall.stored, hstore]
  refine (Store.ofNode_renders?_saveRenders_of_ne _ hformat fetched _ id).trans ?_
  exact sameRenders_stored_of_run hversion run.run_svgCall id

theorem document?_filled (fileKey : String) :
    run.exports.filled.store.document? fileKey = run.fetched.store.document? fileKey := by
  obtain ⟨_, _, _, hdrawn⟩ := exists_fetched_of_exportNodes run.run_svgCall
  obtain ⟨_, _, _, hfilled⟩ := exists_fetched_of_exportNodes (run.run_pngCall hcomplete.drawings)
  rw [Store.document?, hfilled, Store.documents_saveRenders, hdrawn, Store.documents_saveRenders]
  rfl

theorem files_filled : run.exports.filled.files =
    (before.files.removeTree run.dir).writeAll
      (drawingFiles run.assetsDir run.exports.drawings) := by
  have hfetched := files_of_getDocument run.getDocument_eq
  have hdrawn := files_of_exportNodes run.run_svgCall
  rw [files_of_exportNodes (run.run_pngCall hcomplete.drawings), hdrawn, ← hfetched]

/-- The drawings from the store come into the files in which they have been put before. -/
theorem opens_stored : Opens settings.machine
    (drawingFiles run.assetsDir (run.svgCall.stored run.exports.filled)) := by
  intro file hfile
  obtain ⟨image, himage, rfl⟩ := List.mem_map.mp hfile
  obtain ⟨data, hdata⟩ := Option.isSome_iff_exists.mp
    (hcomplete.drawings image.1 (RenderCall.mem_of_mem_stored himage))
  exact run.opens_drawings (drawingPath run.assetsDir image.1, .text data)
    (List.mem_map.mpr ⟨_, mem_of_lookup hdata, rfl⟩)

/-- The session in which a repeated conversion has all of its renders. -/
def refilled (next : Session) (headers : List (String × String)) : Session :=
  { next.sent (probeRequest settings run.fileKey headers) with
    files := (next.files.removeTree run.dir).writeAll
      (drawingFiles run.assetsDir (run.svgCall.stored run.exports.filled)) }

/-- Where the store still holds everything, a conversion comes to its end after one request. -/
theorem outcome_convertFile_again {version : String} {headers : List (String × String)}
    {next : Session} (hcoherent : before.store.IsCoherent)
    (hversion : run.lastModified = .str version) (hne : version ≠ "")
    (hheaders : tokenHeaders settings = .ok headers)
    (hstore : next.store = run.exports.filled.store) (hconfirms : next.confirms version = true) :
    (convertFile settings run.fileKey true).outcome next =
      (finishConversion settings run.fileKey run.json run.lastModified run.document
        run.exports.bitmaps).outcome (run.refilled next headers) := by
  obtain ⟨hdrawings, hbitmaps⟩ := run.sameRenders_filled hcomplete hversion
  obtain ⟨record, hrecord, hjson, htime⟩ :=
    exists_record_of_getDocument hcoherent run.getDocument_eq
  have hmodified := run.lastModified_eq
  rw [hversion] at hmodified
  have hget : (getDocument settings run.fileKey true).outcome next =
      (.ok run.json, next.sent (probeRequest settings run.fileKey headers)) := by
    rw [← hjson]
    refine outcome_getDocument_of_confirms hheaders ?_ ?_ ?_ hne hconfirms
    · rw [hstore, run.document?_filled hcomplete, hrecord]
    · exact isGiven_of_field (hjson ▸ hmodified)
    · exact Except.ok.inj (htime.symm.trans hmodified)
  -- both exports find all of their renders in the store, and ask for nothing
  have hsvg : run.svgCall.run settings
      { next.sent (probeRequest settings run.fileKey headers) with
        files := next.files.removeTree run.dir } =
        (.ok (run.svgCall.stored run.exports.filled), _) :=
    run_of_stored hstore hdrawings hcomplete.drawings
  have hall : ∀ nodeId ∈ run.pngCall.nodeIds,
      (run.exports.bitmaps.lookup nodeId).isSome = true := by
    intro nodeId hnode
    obtain ⟨node, hmem, rfl⟩ := List.mem_map.mp hnode
    exact hcomplete.bitmaps node hmem
  have hpng : run.pngCall.run settings (run.refilled next headers) =
      (.ok (run.pngCall.stored run.exports.filled), _) := run_of_stored hstore hbitmaps hall
  rw [← finishConversion_congr hbitmaps]
  refine outcome_convertFile_of_complete hget run.lastModified_eq run.classify_eq run.emptied hsvg
    (run.opens_stored hcomplete) ?_ hpng
  intro id hid
  rw [lookup_eq_of_ofNode_eq (hdrawings id)]
  exact hcomplete.drawings id hid

/-- The renders of a repeated conversion leave the same files, but for the archive of the first one
and for drawings that share a file. -/
theorem sameFilesBut_refilled {version : String} (headers : List (String × String))
    {next : Session} (hversion : run.lastModified = .str version)
    (hfiles : next.files = after.files) :
    SameFilesBut (fun path ↦ path = Path.ofText settings.zipPath ∨
      SharesDrawing run.assetsDir run.document.fallbackIds path)
        run.exports.filled (run.refilled next headers) := by
  obtain ⟨hdrawings, _⟩ := run.sameRenders_filled hcomplete hversion
  intro path hpath
  obtain ⟨hzip, hshared⟩ := not_or.mp hpath
  have hids (image : String × String) (himage : image ∈ run.svgCall.stored run.exports.filled) :
      image.1 ∈ run.document.fallbackIds := RenderCall.mem_of_mem_stored himage
  rw [run.files_filled hcomplete, refilled]
  refine lookup_writeAll_drawingFiles (fun id ↦ (hdrawings id).symm)
    (fun image ↦ run.mem_fallbackIds_of_mem_drawings) hids hshared ?_
  by_cases hdir : run.dir.isPrefixOf path = true
  · rw [Files.lookup_removeTree _ hdir, Files.lookup_removeTree _ hdir]
  · rw [Files.lookup_removeTree_of_not _ hdir, Files.lookup_removeTree_of_not _ hdir, hfiles,
      run.lookup_of_not hdir hzip]

end Complete

end Conversion

/-- A conversion for which all renders have come can be repeated from the store: while the document
does not change, the service is asked for nothing else, nothing is waited for, the store stays as it
is, and the answer is the same.  So are all files but the archive, and but for drawings of different
nodes that share a file, which may come in another order. -/
theorem convert_again {request again : ConversionRequest} {before after next : Session}
    {answer : ConversionAnswer} {version : String} (hcoherent : before.store.IsCoherent)
    (h : (convert settings request).run before = (.ok answer, after))
    (run : Conversion settings request before after) (hcomplete : run.IsComplete)
    (hversion : answer.lastModified = some version) (hne : version ≠ "")
    (hkey : fileKey? again.figmaUrl = some answer.fileKey) (hcache : again.useCache = true)
    (hstore : next.store = after.store) (hfiles : next.files = after.files)
    (hconfirms : next.confirms version = true) :
    ∃ headers files, tokenHeaders settings = .ok headers ∧
      (convert settings again).run next =
        (.ok answer, { next.sent (probeRequest settings answer.fileKey headers) with files }) ∧
      ∀ path, path ≠ Path.ofText settings.zipPath →
        ¬ SharesDrawing (assetsDir settings answer.fileKey) run.document.fallbackIds path →
          files.lookup path = after.files.lookup path := by
  obtain ⟨own, hown⟩ := exists_conversion h
  have hfile : answer.fileKey = run.fileKey :=
    hown.symm.trans (Option.some.inj (own.key_eq.symm.trans run.key_eq))
  have hfinish : (finishConversion settings run.fileKey run.json run.lastModified run.document
      run.exports.bitmaps).outcome run.exports.filled = (.ok answer, after) := by
    rw [run_convert_of_some run.key_eq, run.outcome_convertFile hcomplete] at h
    obtain ⟨hanswer, hafter⟩ := Prod.mk.inj h
    exact Prod.ext (eq_ok_of_mapError_eq_ok hanswer) hafter
  have hmodified : run.lastModified = .str version := by
    rw [← optionalText_eq_ok_some, ← hversion]
    exact (outcome_finishConversion_eq_ok hfinish).2
  obtain ⟨headers, hheaders⟩ := exists_headers_of_getDocument run.getDocument_eq
  -- up to its end the repeated conversion only asks whether the document has changed
  have hsame := run.sameFilesBut_refilled hcomplete headers hmodified hfiles
  obtain ⟨hkept, files, hend, hlookup⟩ :=
    outcome_finishConversion_of_same hsame (Or.inl rfl) hfinish
  have hstored : next.store = run.exports.filled.store :=
    hstore.trans hkept.store_eq
  have hagain := run.outcome_convertFile_again hcomplete hcoherent hmodified hne hheaders hstored
    hconfirms
  rw [hend] at hagain
  rw [hfile] at hkey ⊢
  refine ⟨headers, files, hheaders, ?_, fun path hzip hshared ↦ ?_⟩
  · rw [run_convert_of_some hkey, hcache, hagain]
    rfl
  · exact hlookup path (not_or.mpr ⟨hzip, hshared⟩)

/-- Whether all renders come that a conversion asks for, found out by asking for them. -/
def rendersAll (settings : Settings) (fileKey : String) (useCache : Bool) (s : Session) : Bool :=
  match (getDocument settings fileKey useCache).outcome s with
  | (.error _, _) => false
  | (.ok json, fetched) =>
    match field json "lastModified", classifyDocument settings.policy json with
    | .ok lastModified, .ok document =>
      let fallbacks : RenderCall := ⟨fileKey, document.fallbackIds, "svg", 1, lastModified⟩
      let images : RenderCall := ⟨fileKey, document.imageFillNodes.map (·.1), "png",
        settings.bitmapScale, lastModified⟩
      match fallbacks.run settings
          { fetched with files := fetched.files.removeTree (siteDir settings fileKey) } with
      | (.error _, _) => false
      | (.ok drawings, drawn) =>
        document.fallbackIds.all (fun id ↦ (drawings.lookup id).isSome) &&
          match images.run settings
              { drawn with
                files := drawn.files.writeAll
                  (drawingFiles (assetsDir settings fileKey) drawings) } with
          | (.error _, _) => false
          | (.ok bitmaps, _) => document.imageFillNodes.all fun node ↦ (bitmaps.lookup node.1).isSome
    | _, _ => false

theorem Conversion.isComplete_of_rendersAll {request : ConversionRequest}
    {before after : Session} (run : Conversion settings request before after)
    (h : rendersAll settings run.fileKey request.useCache before = true) : run.IsComplete := by
  rw [rendersAll, run.getDocument_eq] at h
  dsimp only at h
  rw [run.lastModified_eq, run.classify_eq] at h
  dsimp only at h
  have hsvg := run.run_svgCall
  rw [svgCall, Assembly.dir] at hsvg
  rw [hsvg] at h
  obtain ⟨hdrawings, h⟩ := (Bool.and_eq_true _ _).mp h
  have hdrawings := List.all_eq_true.mp hdrawings
  have hpng := run.run_pngCall hdrawings
  rw [pngCall, assetsDir] at hpng
  rw [hpng] at h
  exact ⟨hdrawings, List.all_eq_true.mp h⟩

/-- The studio when the poster is asked for again and has not changed. -/
def reopened : Session :=
  { ((convert withToken ⟨"Ab1", true⟩).run studio).2 with
    replies := [.response { body := "\x7b\"lastModified\":\"1\"\x7d" }] }

theorem not_sharesDrawing_page {fileKey : String} (ids : List String) :
    ¬ SharesDrawing (assetsDir settings fileKey) ids
      (siteDir settings fileKey ++ ["index.html"]) := by
  rintro ⟨i, _, j, _, _, hpath, _⟩
  rw [drawingPath, assetsDir_append] at hpath
  simp at hpath

/-- The poster is converted again after one request, and its page is the same. -/
theorem convert_again_studio : ∃ answer headers files,
    (convert withToken ⟨"Ab1", true⟩).run reopened =
        (.ok answer, { reopened.sent (probeRequest withToken "Ab1" headers) with files }) ∧
      files.lookup (siteDir withToken "Ab1" ++ ["index.html"]) =
        reopened.files.lookup (siteDir withToken "Ab1" ++ ["index.html"]) := by
  have hcoherent : studio.store.IsCoherent := by
    refine ⟨by decide, fun record hrecord ↦ ?_⟩
    rw [List.mem_singleton.mp hrecord]
    rfl
  have hcheck : (match ((convert withToken ⟨"Ab1", true⟩).run studio).1 with
      | .ok answer => decide (answer.fileKey = "Ab1" ∧ answer.lastModified = some "1")
      | .error _ => false) = true := by decide +kernel
  cases hrun : (convert withToken ⟨"Ab1", true⟩).run studio with
  | mk result after =>
      rw [hrun] at hcheck
      cases result with
      | error rejection => exact Bool.noConfusion hcheck
      | ok answer =>
          obtain ⟨hkey, hversion⟩ := of_decide_eq_true hcheck
          obtain ⟨run, hsame⟩ := exists_conversion hrun
          have hcomplete : run.IsComplete := by
            refine run.isComplete_of_rendersAll ?_
            rw [hsame, hkey]
            decide +kernel
          have hstore : reopened.store = after.store := by rw [reopened, hrun]
          have hfiles : reopened.files = after.files := by rw [reopened, hrun]
          have hrequest : fileKey? (ConversionRequest.mk "Ab1" true).figmaUrl =
              some answer.fileKey := by
            rw [hkey]
            decide +kernel
          obtain ⟨headers, files, _, hagain, hlookup⟩ := convert_again hcoherent hrun run hcomplete
            hversion (by decide) hrequest rfl hstore hfiles (by decide +kernel)
          rw [hkey] at hagain hlookup
          refine ⟨answer, headers, files, hagain, ?_⟩
          rw [hfiles]
          exact hlookup _ (by decide +kernel) (not_sharesDrawing_page _)

/-! ## Drawings in another order -/

/-- Ids with one slug: they are alike after the replacement, and so are the beginnings of their
digests. -/
def twins : String × String := ("1.2;3.4|5.6;7.8", "1/2;3:4/5|6;7.8")

def twinPoster : Json :=
  .obj [("lastModified", .str "2"), ("document", .obj [("children", .arr [.obj [
    ("children", .arr [.obj [("id", .str twins.1), ("type", .str "VECTOR"), ("isMask", .bool true)],
      .obj [("id", .str twins.2), ("type", .str "VECTOR"), ("isMask", .bool true)]])]])])]

/-- A session with a drawing of the first twin under an earlier version and one of the second twin
under the present one.  The service renders the first twin again. -/
def twinStudio : Session where
  replies := [.response { body := "\x7b\"lastModified\":\"2\"\x7d" },
    .response { body := "\x7b\"images\":\x7b\"1.2;3.4|5.6;7.8\":\"first\"\x7d\x7d" },
    .response { body := "<svg>first</svg>" }]
  store :=
    { documents := [⟨"Ab1", twinPoster, .str "2"⟩]
      renders := [⟨⟨"Ab1", twins.1, "svg"⟩, .str "1", "<svg>old</svg>"⟩,
        ⟨⟨"Ab1", twins.2, "svg"⟩, .str "2", "<svg>second</svg>"⟩] }

def twinReopened : Session :=
  { ((convert withToken ⟨"Ab1", true⟩).run twinStudio).2 with
    replies := [.response { body := "\x7b\"lastModified\":\"2\"\x7d" }] }

def Session.drawingIs (s : Session) (id text : String) : Bool :=
  match s.files.lookup (drawingPath (assetsDir withToken "Ab1") id) with
  | some (.text own) => own == text
  | _ => false

/-- The drawings of a conversion need not be the same when it is repeated: those of the twins share
a file, in which first the one comes last that was fetched, and then the one that was saved last. -/
theorem not_convert_again_drawings : ¬ ∀ (settings : Settings) (request again : ConversionRequest)
    (before after next : Session) (answer : ConversionAnswer) (version : String),
    before.store.IsCoherent → (convert settings request).run before = (.ok answer, after) →
      (∀ run : Conversion settings request before after, run.IsComplete) →
        answer.lastModified = some version → version ≠ "" →
          fileKey? again.figmaUrl = some answer.fileKey → again.useCache = true →
            next.store = after.store → next.files = after.files → next.confirms version = true →
              ∀ name, ((convert settings again).run next).2.files.lookup
                  (assetsDir settings answer.fileKey ++ [name]) =
                after.files.lookup (assetsDir settings answer.fileKey ++ [name]) := by
  intro h
  have hcoherent : twinStudio.store.IsCoherent := by
    refine ⟨by decide, fun record hrecord ↦ ?_⟩
    rw [List.mem_singleton.mp hrecord]
    rfl
  have hcheck : (match (convert withToken ⟨"Ab1", true⟩).run twinStudio with
      | (.ok answer, after) => decide (answer.fileKey = "Ab1" ∧ answer.lastModified = some "2") &&
          after.drawingIs twins.1 "<svg>first</svg>"
      | (.error _, _) => false) = true := by decide +kernel
  have hsecond : (((convert withToken ⟨"Ab1", true⟩).run twinReopened).2.drawingIs twins.1
      "<svg>second</svg>") = true := by decide +kernel
  have hrequest : fileKey? (ConversionRequest.mk "Ab1" true).figmaUrl = some "Ab1" := by
    decide +kernel
  cases hrun : (convert withToken ⟨"Ab1", true⟩).run twinStudio with
  | mk result after =>
      rw [hrun] at hcheck
      cases result with
      | error rejection => exact Bool.noConfusion hcheck
      | ok answer =>
          obtain ⟨hanswer, hfirst⟩ := (Bool.and_eq_true _ _).mp hcheck
          obtain ⟨hkey, hversion⟩ := of_decide_eq_true hanswer
          have hcomplete (run : Conversion withToken ⟨"Ab1", true⟩ twinStudio after) :
              run.IsComplete := by
            refine run.isComplete_of_rendersAll ?_
            have hown := Option.some.inj (run.key_eq.symm.trans hrequest)
            rw [hown]
            decide +kernel
          have hstore : twinReopened.store = after.store := by rw [twinReopened, hrun]
          have hfiles : twinReopened.files = after.files := by rw [twinReopened, hrun]
          have hagain : fileKey? (ConversionRequest.mk "Ab1" true).figmaUrl = some answer.fileKey := by
            rw [hkey, hrequest]
          have hsame := h withToken ⟨"Ab1", true⟩ ⟨"Ab1", true⟩ twinStudio after twinReopened answer
            "2" hcoherent hrun hcomplete hversion (by decide) hagain rfl hstore hfiles
            (by decide +kernel) (Naming.fallbackAsset twins.1)
          rw [hkey] at hsame
          rw [Session.drawingIs, drawingPath, hsame] at hsecond
          rw [Session.drawingIs, drawingPath] at hfirst
          cases hlookup : after.files.lookup
              (assetsDir withToken "Ab1" ++ [Naming.fallbackAsset twins.1]) with
          | none =>
              rw [hlookup] at hfirst
              exact Bool.noConfusion hfirst
          | some content =>
              rw [hlookup] at hfirst hsecond
              cases content with
              | archive entries => exact Bool.noConfusion hfirst
              | text own =>
                  have hsvg := (eq_of_beq hfirst).symm.trans (eq_of_beq hsecond)
                  exact absurd hsvg (by decide)

end DesignToWeb.Service
