import DesignToWeb.Proofs.Emission
import DesignToWeb.Proofs.Service.Breaking
import DesignToWeb.Proofs.Service.Site

/-!
# Conversions that fail

A conversion that fails has touched no files, or it has got as far as to empty the
directory of its file.  From there on it fails by faults of its own only, so what the
design service or a document without children is to blame for has left every file as
it was.
-/

namespace DesignToWeb

/-! ## Faults of a conversion itself -/

/-- Whether neither the design service nor the shape of the document is to blame. -/
def Fault.isOwn : Fault → Bool
  | serviceFailure _ _ | documentNoObject | documentWithoutChildren => false
  | _ => true

namespace Service

open Service.Action

variable {settings : Settings} {request : ConversionRequest} {before after : Session}
  {fault : Fault}

theorem status_ofFault (h : fault.isOwn = true) : (Rejection.ofFault fault).status = 500 := by
  cases fault with
  | serviceFailure _ _ | documentNoObject | documentWithoutChildren => exact Bool.noConfusion h
  | _ => rfl

theorem ofIntChecked_isOwn (n : Int) : FailsBy (·.isOwn = true) (Binary64.ofIntChecked n) := by
  rw [Binary64.ofIntChecked]
  split
  · exact .ok _
  · exact .error rfl

theorem retryDelay_isOwn (r : Response) (attempt : Nat) :
    FailsBy (·.isOwn = true) (retryDelay settings r attempt) := by
  have hbackoff : FailsBy (·.isOwn = true) (backoff settings attempt) :=
    .bind (ofIntChecked_isOwn _) fun _ _ ↦ .pure _
  rw [retryDelay]
  split
  · exact hbackoff
  · split
    · exact .ok _
    · exact hbackoff

theorem isOwn_of_isShape (h : fault.isShape = true) : fault.isOwn = true := by
  cases fault with
  | compoundName _ | noList _ | pairNoSequence _ | pairLength _ _ => rfl
  | _ => exact Bool.noConfusion h

theorem Reply.Breaks.isOwn {reply : Reply} (h : reply.Breaks settings fault) :
    fault.isOwn = true := by
  cases h with
  | delay _ _ h =>
      cases h with
      | uncomputed h => exact retryDelay_isOwn _ _ _ h
      | notNumber _ _ _ | uncounted _ _ _ _ | negative _ _ _ _ => rfl
  | answer _ h =>
      cases h with
      | notJson _ | noObject _ _ => rfl
      | images _ _ _ _ _ h => exact isOwn_of_isShape (ofAnswer_isShape _ _ h)

/-- What breaks an export is a fault of its own. -/
theorem exportNodes_isOwn {fileKey : String} {nodeIds : List String} {format : String}
    {scale : Int} {lastModified : Json}
    (h : (exportNodes settings fileKey nodeIds format scale lastModified).outcome before =
      (.error fault, after)) : fault.isOwn = true := by
  let call : RenderCall := ⟨fileKey, nodeIds, format, scale, lastModified⟩
  obtain ⟨xs, _, hends⟩ := exportEnds_run settings call before
  have hrun : call.run settings before = (.error fault, after) := h
  rw [hrun] at hends
  obtain _ | _ | _ | ⟨hstops, hother, _⟩ := hends
  obtain ⟨_, _, _, _, _, hbreaks⟩ := exists_breaks_of_stops hstops hother
  exact hbreaks.isOwn

/-! ## Failing steps -/

theorem StopsAssets.isOwn {fileKey : String} {lastModified : Json}
    (h : StopsAssets settings fileKey lastModified fault) : fault.isOwn = true := by
  cases h with
  | unrendered h => exact exportNodes_isOwn h
  | refused reason => rfl

theorem TextsEnd.isOwn {dir : Path} {texts : List (String × String)}
    (h : TextsEnd dir texts before (some fault) after) : fault.isOwn = true := by
  cases h with
  | refused _ _ => rfl

theorem ArchiveEnds.isOwn {dir : Path} (h : ArchiveEnds settings dir before (some fault) after) :
    fault.isOwn = true := by
  cases h with
  | kept _ | gone _ | begun _ _ => rfl

theorem AssetExport.areAssets_written {fileKey : String} {document : ClassifiedDocument}
    {lastModified : Json} (steps : AssetExport settings fileKey document lastModified before after) :
    AreAssets settings fileKey steps.written :=
  areAssets_append.mpr ⟨areAssets_append.mpr ⟨areAssets_drawingFiles fileKey _,
    areAssets_placeholders steps.mem_placeholders⟩, areAssets_bitmapFiles fileKey _ _ _⟩

theorem optionalText_eq_error {field : Json} (h : optionalText field = .error fault) :
    fault = .malformedAnswer := by
  cases field with
  | null | str _ => exact nomatch h
  | _ => exact (Except.error.inj h).symm

/-! ## Files in the directory and elsewhere -/

theorem AreAssets.exists_of_mem {fileKey : String} {files : Files} {path : Path}
    {content : Content} (h : AreAssets settings fileKey files)
    (hmem : (siteDir settings fileKey ++ path, content) ∈ files) :
    ∃ name, path = ["assets", name] := by
  obtain ⟨name, hname⟩ := h _ hmem
  rw [assetsDir_append] at hname
  exact ⟨name, List.append_cancel_left hname⟩

theorem AreAssets.exists_path {fileKey : String} {files : Files}
    (h : AreAssets settings fileKey files) :
    ∀ file ∈ files, ∃ rest, file.1 = siteDir settings fileKey ++ rest := by
  intro file hfile
  obtain ⟨name, hname⟩ := h file hfile
  exact ⟨["assets", name], hname.trans (assetsDir_append settings fileKey name)⟩

namespace Assembly

variable (steps : Assembly settings request before) {path : Path}

/-- A site of which only the directory has been changed has left all other files as they were. -/
theorem lookup_finished_of_not (hpath : ¬ steps.dir.isPrefixOf path = true) :
    steps.finished.lookup path = before.files.lookup path := by
  rw [steps.finished_eq, Files.lookup_emptied_of_not _ hpath,
    files_of_getDocument steps.getDocument_eq]
  intro file hfile
  obtain ⟨rest, text, _, rfl⟩ := steps.mem_written.mp hfile
  exact ⟨rest, rfl⟩

end Assembly

/-- The archive is the only file that a conversion writes outside of its directory. -/
theorem Conversion.lookup_of_not (run : Conversion settings request before after) {path : Path}
    (hpath : ¬ run.dir.isPrefixOf path = true) (hzip : path ≠ Path.ofText settings.zipPath) :
    after.files.lookup path = before.files.lookup path := by
  rw [run.after_files, Files.lookup_putArchive, if_neg hzip, run.lookup_finished_of_not hpath]

/-! ## Failing conversions -/

/-- How far a conversion that is turned down has got, and what it leaves behind. -/
inductive FailedConversion (settings : Settings) (request : ConversionRequest)
    (before after : Session) (rejection : Rejection) : Prop
  /-- No file has been touched. -/
  | early (hfiles : after.files = before.files)
  /-- The directory could not be emptied, and nothing has been written. -/
  | unemptied {fileKey : String} {json : Json} {fetched : Session} {document : ClassifiedDocument}
      (hkey : fileKey? request.figmaUrl = some fileKey)
      (hfetched : (getDocument settings fileKey request.useCache).outcome before =
        (.ok json, fetched))
      (hdocument : classifyDocument settings.policy json = .ok document)
      (hstatus : rejection.status = 500)
      (houtside : ∀ path, ¬ (siteDir settings fileKey).isPrefixOf path = true →
        after.files.lookup path = before.files.lookup path)
      (hinside : ∀ path content,
        after.files.lookup (siteDir settings fileKey ++ path) = some content →
          before.files.lookup (siteDir settings fileKey ++ path) = some content) :
      FailedConversion settings request before after rejection
  /-- The directory has been emptied, and nothing but assets has been written to it. -/
  | midway {fileKey : String} {json : Json} {fetched : Session} {document : ClassifiedDocument}
      (hkey : fileKey? request.figmaUrl = some fileKey)
      (hfetched : (getDocument settings fileKey request.useCache).outcome before =
        (.ok json, fetched))
      (hdocument : classifyDocument settings.policy json = .ok document)
      (hstatus : rejection.status = 500)
      (houtside : ∀ path, ¬ (siteDir settings fileKey).isPrefixOf path = true →
        after.files.lookup path = before.files.lookup path)
      (hinside : ∀ path content,
        after.files.lookup (siteDir settings fileKey ++ path) = some content →
          ∃ name, path = ["assets", name]) :
      FailedConversion settings request before after rejection
  /-- One of the texts of the site could not be written to its end.  Next to the assets there are
  the texts before it, and at most a beginning of its own. -/
  | unwritten (steps : Assembly settings request before) {earlier later : List (String × String)}
      {text : String × String}
      (htexts : siteTexts steps.emission steps.manifest = earlier ++ text :: later)
      (hstatus : rejection.status = 500)
      (houtside : ∀ path, ¬ steps.dir.isPrefixOf path = true →
        after.files.lookup path = before.files.lookup path)
      (hinside : ∀ path content, after.files.lookup (steps.dir ++ path) = some content →
        (∃ name, path = ["assets", name]) ∨
          (∃ own ∈ earlier, path = [own.1] ∧ content = .text own.2) ∨
          path = [text.1] ∧ ∃ count, content = .text (String.ofList (text.2.toList.take count)))
      (hearlier : ∀ own ∈ earlier,
        (after.files.lookup (steps.dir ++ [own.1])).isSome = true) :
      FailedConversion settings request before after rejection
  /-- The site has been written, and its archive could not be completed.  It is the one before, or
  there is none, or it holds a part of the site. -/
  | unarchived (steps : Assembly settings request before) (hstatus : rejection.status = 500)
      (houtside : ∀ path, ¬ steps.dir.isPrefixOf path = true →
        path ≠ Path.ofText settings.zipPath →
        after.files.lookup path = before.files.lookup path)
      (hsite : ¬ steps.dir.isPrefixOf (Path.ofText settings.zipPath) = true →
        steps.LeavesSite after)
      (harchive : ¬ steps.dir.isPrefixOf (Path.ofText settings.zipPath) = true →
        after.files.lookup (Path.ofText settings.zipPath) =
            before.files.lookup (Path.ofText settings.zipPath) ∨
          after.files.lookup (Path.ofText settings.zipPath) = none ∨
          ∃ count, after.files.lookup (Path.ofText settings.zipPath) =
            some (.archive (steps.listing.take count))) :
      FailedConversion settings request before after rejection
  /-- The site and the archive have been written, but the answer cannot be given, because the name
  or the time of change of the document is neither a text nor null. -/
  | late (run : Conversion settings request before after)
      (hanswer : optionalText (run.json.attributes.get "name") = .error .malformedAnswer ∨
        optionalText run.lastModified = .error .malformedAnswer)
      (hstatus : rejection.status = 500)
      (houtside : ∀ path, ¬ run.dir.isPrefixOf path = true → path ≠ Path.ofText settings.zipPath →
        after.files.lookup path = before.files.lookup path)
      (hsite : ¬ run.dir.isPrefixOf (Path.ofText settings.zipPath) = true →
        run.LeavesSite after) :
      FailedConversion settings request before after rejection

section Ends

variable {fileKey : String} {json : Json} {fetched : Session} {document : ClassifiedDocument}

theorem failedConversion_of_assets {assets : Files}
    (hkey : fileKey? request.figmaUrl = some fileKey)
    (hfetched : (getDocument settings fileKey request.useCache).outcome before =
      (.ok json, fetched))
    (hdocument : classifyDocument settings.policy json = .ok document)
    (hassets : AreAssets settings fileKey assets)
    (hfiles : after.files = (fetched.files.removeTree (siteDir settings fileKey)).writeAll assets)
    (hown : fault.isOwn = true) :
    FailedConversion settings request before after (.ofFault fault) := by
  rw [files_of_getDocument hfetched] at hfiles
  refine .midway hkey hfetched hdocument (status_ofFault hown) ?_ ?_
  · intro path hpath
    rw [hfiles, Files.lookup_emptied_of_not hassets.exists_path hpath]
  · intro path content hlookup
    rw [hfiles] at hlookup
    exact hassets.exists_of_mem (Files.mem_of_lookup_emptied hlookup)

theorem failedConversion_of_unemptied {stays : Path → Bool}
    (hkey : fileKey? request.figmaUrl = some fileKey)
    (hfetched : (getDocument settings fileKey request.useCache).outcome before =
      (.ok json, fetched))
    (hdocument : classifyDocument settings.policy json = .ok document)
    (hfiles : after.files = fetched.files.removeTreeBut stays (siteDir settings fileKey))
    (hown : fault.isOwn = true) :
    FailedConversion settings request before after (.ofFault fault) := by
  rw [files_of_getDocument hfetched] at hfiles
  refine .unemptied hkey hfetched hdocument (status_ofFault hown) ?_ ?_
  · intro path hpath
    rw [hfiles, Files.lookup_removeTreeBut, Bool.eq_false_iff.mpr hpath]
    rfl
  · intro path content hlookup
    rw [hfiles] at hlookup
    exact Files.lookup_of_removeTreeBut hlookup

end Ends

theorem failedConversion_of_texts (steps : Assembly settings request before)
    (h : TextsEnd steps.dir (siteTexts steps.emission steps.manifest) steps.exported
      (some fault) after) :
    FailedConversion settings request before after (.ofFault fault) := by
  have hown := h.isOwn
  have hassets := steps.exports.areAssets_written
  have hexported : steps.exported.files =
      (steps.fetched.files.removeTree steps.dir).writeAll steps.exports.written :=
    steps.exports.files_eq
  obtain _ | ⟨htexts, hbegun⟩ := h
  refine .unwritten steps htexts (status_ofFault hown) (fun path hpath ↦ ?_)
    (fun path content hlookup ↦ ?_) (fun own hearlier ↦ ?_)
  · dsimp only
    rw [hexported, ← Files.writeAll_append, Files.lookup_emptied_of_not _ hpath,
      files_of_getDocument steps.getDocument_eq]
    intro file hfile
    rcases List.mem_append.mp hfile with hfile | hfile
    · exact hassets.exists_path file hfile
    · rcases hbegun.mem_append hfile with ⟨own, _, rfl⟩ | ⟨count, rfl⟩
      · exact ⟨_, rfl⟩
      · exact ⟨_, rfl⟩
  · dsimp only at hlookup
    rw [hexported, ← Files.writeAll_append] at hlookup
    rcases List.mem_append.mp (Files.mem_of_lookup_emptied hlookup) with hfile | hfile
    · exact Or.inl (hassets.exists_of_mem hfile)
    · rcases hbegun.mem_append hfile with ⟨own, hmem, hfile⟩ | ⟨count, hfile⟩
      · obtain ⟨hpath, hcontent⟩ := Prod.mk.inj hfile
        exact Or.inr (Or.inl ⟨own, hmem, List.append_cancel_left hpath, hcontent⟩)
      · obtain ⟨hpath, hcontent⟩ := Prod.mk.inj hfile
        exact Or.inr (Or.inr ⟨List.append_cancel_left hpath, count, hcontent⟩)
  · refine Files.isSome_lookup_writeAll.mpr (Or.inl ⟨.text own.2, ?_⟩)
    exact List.mem_append_left _ (List.mem_map.mpr ⟨own, hearlier, rfl⟩)

theorem failedConversion_of_archive (steps : Assembly settings request before)
    (h : ArchiveEnds settings steps.dir { steps.exported with files := steps.finished }
      (some fault) after) :
    FailedConversion settings request before after (.ofFault fault) := by
  refine .unarchived steps (status_ofFault h.isOwn) (fun path hpath hzip ↦ ?_) (fun hzip ↦ ?_)
    fun hzip ↦ ?_
  · exact (h.lookup_of_ne hzip).trans (steps.lookup_finished_of_not hpath)
  · exact steps.leavesSite fun path ↦ h.lookup_of_ne (Files.append_ne_of_not hzip path)
  · cases h with
    | kept _ => exact Or.inl (steps.lookup_finished_of_not hzip)
    | gone _ => exact Or.inr (Or.inl ((Files.lookup_erase _ _ _).trans (if_pos rfl)))
    | begun _ count =>
        exact Or.inr (Or.inr ⟨count, (Files.lookup_putArchive _ _ _ _).trans (if_pos rfl)⟩)

theorem failedConversion_of_answer (run : Conversion settings request before after)
    (h : run.answer = .error fault) :
    FailedConversion settings request before after (.ofFault fault) := by
  have hfield : optionalText (run.json.attributes.get "name") = .error fault ∨
      optionalText run.lastModified = .error fault := by
    rcases Outcome.bind_eq_error.mp h with hname | ⟨name, _, h⟩
    · exact Or.inl hname
    · rcases Outcome.bind_eq_error.mp h with hmodified | ⟨modified, _, h⟩
      · exact Or.inr hmodified
      · exact nomatch h
  obtain rfl : fault = .malformedAnswer := hfield.elim optionalText_eq_error optionalText_eq_error
  exact .late run hfield rfl (fun _ ↦ run.lookup_of_not) run.leavesSite

theorem failedConversion_of_ends
    (h : ConversionEnds settings request before after (.error fault)) :
    FailedConversion settings request before after (.ofFault fault) := by
  cases h with
  | unaccepted hfiles => exact .early hfiles
  | unemptied hkey hfetched hdocument hfiles =>
      exact failedConversion_of_unemptied hkey hfetched hdocument hfiles rfl
  | unexported hkey hfetched hdocument hexport =>
      cases hexport with
      | stopped hcause hwritten hfiles =>
          exact failedConversion_of_assets hkey hfetched hdocument hwritten hfiles hcause.isOwn
  | unemitted hkey hfetched hdocument exports hemit =>
      obtain rfl := (returnsIf_emit hdocument _ _).eq_of_error hemit
      exact failedConversion_of_assets hkey hfetched hdocument exports.areAssets_written
        exports.files_eq rfl
  | unwritten steps htexts => exact failedConversion_of_texts steps htexts
  | unarchived steps harchive => exact failedConversion_of_archive steps harchive
  | written run hanswer => exact failedConversion_of_answer run hanswer

/-- A conversion that is turned down leaves all files as they were, unless its status is 500 and it
has accepted a document.  Then the directory of its file may not have been emptied to the end, or it
has been emptied and holds assets only, or those texts of the site that could be written, or the
complete site where nothing but the archive or the answer is missing.  The archive of a complete site
is the one file elsewhere that may differ. -/
theorem convert_error_cases {rejection : Rejection}
    (h : (convert settings request).run before = (.error rejection, after)) :
    (rejection.status ≠ 500 → after.files = before.files) ∧
      FailedConversion settings request before after rejection := by
  have hfailed : FailedConversion settings request before after rejection := by
    rcases run_convert_eq h with ⟨_, rfl⟩ | ⟨own, hends, hrejection⟩
    · exact .early rfl
    cases own with
    | ok answer => exact nomatch hrejection
    | error fault =>
        obtain rfl := Except.error.inj hrejection
        exact failedConversion_of_ends hends
  refine ⟨fun hstatus ↦ ?_, hfailed⟩
  cases hfailed with
  | early hfiles => exact hfiles
  | unemptied _ _ _ hown _ _ | midway _ _ _ hown _ _ => exact absurd hown hstatus
  | unwritten _ _ hown _ _ _ | unarchived _ hown _ _ _ => exact absurd hown hstatus
  | late _ _ hown _ _ => exact absurd hown hstatus

/-- A session with the pages of two files, the first of which has come to hold numbers that are too
far apart. -/
def outgrown : Session where
  replies := [.response { body := "\x7b\"lastModified\":\"2\"\x7d" }]
  store := { documents :=
    [⟨"Ab1", .obj [("lastModified", .str "2"), ("document", farApart)], .str "2"⟩] }
  files := [(["generated_site", "Ab1", "index.html"], .text "<p>first</p>"),
    (["generated_site", "Cd2", "index.html"], .text "<p>second</p>")]

theorem run_convert_outgrown : ∃ rejection after,
    (convert withToken ⟨"Ab1", true⟩).run outgrown = (.error rejection, after) ∧
      rejection.status = 500 ∧
      after.files.lookup ["generated_site", "Ab1", "index.html"] = none := by
  have hcheck : (match (convert withToken ⟨"Ab1", true⟩).run outgrown with
      | (.error rejection, after) => decide (rejection.status = 500) &&
          (after.files.lookup ["generated_site", "Ab1", "index.html"]).isNone
      | (.ok _, _) => false) = true := by decide +kernel
  cases hrun : (convert withToken ⟨"Ab1", true⟩).run outgrown with
  | mk result after =>
      rw [hrun] at hcheck
      cases result with
      | ok answer => exact Bool.noConfusion hcheck
      | error rejection =>
          obtain ⟨hstatus, hnone⟩ := (Bool.and_eq_true _ _).mp hcheck
          exact ⟨rejection, after, rfl, of_decide_eq_true hstatus, Option.isNone_iff_eq_none.mp hnone⟩

/-- The page of the first file is gone, that of the second one is not. -/
theorem convert_error_cases_outgrown : ∃ rejection after,
    (convert withToken ⟨"Ab1", true⟩).run outgrown = (.error rejection, after) ∧
      rejection.status = 500 ∧
      after.files.lookup ["generated_site", "Ab1", "index.html"] = none ∧
      after.files.lookup ["generated_site", "Cd2", "index.html"] = some (.text "<p>second</p>") := by
  obtain ⟨rejection, after, hrun, hstatus, hgone⟩ := run_convert_outgrown
  refine ⟨rejection, after, hrun, hstatus, hgone, ?_⟩
  have hsecond : outgrown.files.lookup ["generated_site", "Cd2", "index.html"] =
      some (.text "<p>second</p>") := rfl
  have hkey : fileKey? "Ab1" = some "Ab1" := by decide +kernel
  have helsewhere : ¬ (siteDir withToken "Ab1").isPrefixOf
      ["generated_site", "Cd2", "index.html"] = true := by decide +kernel
  obtain ⟨_, hfailed⟩ := convert_error_cases hrun
  cases hfailed with
  | early hfiles => rw [hfiles, hsecond]
  | unemptied hown _ _ _ houtside _ | midway hown _ _ _ houtside _ =>
      obtain rfl := Option.some.inj (hkey.symm.trans hown)
      rw [houtside _ helsewhere, hsecond]
  | unwritten steps _ _ houtside _ _ =>
      have hown : "Ab1" = steps.fileKey := Option.some.inj (hkey.symm.trans steps.key_eq)
      rw [Assembly.dir, ← hown] at houtside
      rw [houtside _ helsewhere, hsecond]
  | unarchived steps _ houtside _ _ =>
      have hown : "Ab1" = steps.fileKey := Option.some.inj (hkey.symm.trans steps.key_eq)
      rw [Assembly.dir, ← hown] at houtside
      rw [houtside _ helsewhere (by decide +kernel), hsecond]
  | late run _ _ houtside _ =>
      have hown : "Ab1" = run.fileKey := Option.some.inj (hkey.symm.trans run.key_eq)
      rw [Assembly.dir, ← hown] at houtside
      rw [houtside _ helsewhere (by decide +kernel), hsecond]

/-- The name of the document is half of a pair of surrogates, and its page is left empty. -/
example : (match (convert { withToken with machine := .strictWriter } ⟨"Ab1", false⟩).run
      { replies := [.response { body := "\x7b\"lastModified\":\"1\",\"name\":\"\\ud800\"," ++
          "\"document\":\x7b\"children\":[]\x7d\x7d" }] } with
    | (.error rejection, after) => decide (rejection.status = 500) &&
        match after.files with
        | [(path, .text text)] => path == siteDir {} "Ab1" ++ ["index.html"] && text.isEmpty
        | _ => false
    | (.ok _, _) => false) = true := by decide +kernel

/-- The archive is a directory, so that a conversion is turned down though its page is there. -/
example : (match (convert { withToken with machine := { removing? := fun _ ↦ some "a directory" } }
      ⟨"Ab1", true⟩).run studio with
    | (.error rejection, after) => decide (rejection.status = 500) &&
        (after.files.lookup (siteDir {} "Ab1" ++ ["index.html"])).isSome
    | (.ok _, _) => false) = true := by decide +kernel

/-- Not every conversion that is turned down leaves the files as they were. -/
theorem not_convert_error_files : ¬ ∀ (settings : Settings) (request : ConversionRequest)
    (before after : Session) (rejection : Rejection),
    (convert settings request).run before = (.error rejection, after) →
      after.files = before.files := by
  intro h
  obtain ⟨rejection, after, hrun, _, hgone⟩ := run_convert_outgrown
  rw [h _ _ _ _ _ hrun] at hgone
  exact absurd hgone (by decide +kernel)

end Service
end DesignToWeb
