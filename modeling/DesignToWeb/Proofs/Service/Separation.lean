import DesignToWeb.Proofs.Service.Documents
import DesignToWeb.Proofs.Service.FileKey
import DesignToWeb.Proofs.Service.Lockstep
import DesignToWeb.Proofs.Service.Renders

/-!
# Files that are kept apart

The conversion of one file has nothing to do with any other.  Its records are
saved under its own key, and its site is a directory of its own, whose name is
the key and which no name inside it leads out of.
-/

namespace DesignToWeb.Service

open Service.Action

/-! ## Keys -/

/-- The key of a file is the name of its directory, whatever text it was found in. -/
theorem isPlainName_of_fileKey? {text fileKey : String} (h : fileKey? text = some fileKey) :
    Naming.IsPlainName fileKey := by
  have hkey := isKey_of_fileKey? h
  obtain ⟨c, rest, hcs⟩ := List.exists_cons_of_ne_nil hkey.ne_nil
  have hc : c ∈ fileKey.toList := hcs ▸ List.mem_cons_self
  refine Naming.isPlainName_of_mem hc ?_ fun hslash ↦ ?_
  · rintro rfl
    exact Bool.noConfusion (hkey.isAlphanum '.' hc)
  · exact Bool.noConfusion (hkey.isAlphanum '/' hslash)

/-! ## Records -/

namespace Store

/-- The documents of all other files. -/
def documentsBeside (store : Store) (fileKey : String) : List StoredDocument :=
  store.documents.filter (·.fileKey != fileKey)

/-- The renders of all other files. -/
def rendersBeside (store : Store) (fileKey : String) : List StoredRender :=
  store.renders.filter (·.key.fileKey != fileKey)

variable (store : Store) {fileKey : String}

theorem documentsBeside_saveDocument {record : StoredDocument} (h : record.fileKey = fileKey) :
    (store.saveDocument record).documentsBeside fileKey = store.documentsBeside fileKey := by
  refine filter_upsert (p := fun document : StoredDocument ↦ document.fileKey != fileKey)
    (bne_eq_false_iff_eq.mpr h) (fun document hmatch ↦ ?_) _
  rw [eq_of_beq hmatch, h]
  exact bne_self_eq_false fileKey

theorem rendersBeside_saveRenders (images : List (String × String)) (format : String)
    (lastModified : Json) :
    (store.saveRenders fileKey images format lastModified).rendersBeside fileKey =
      store.rendersBeside fileKey := by
  induction images generalizing store with
  | nil => rfl
  | cons image rest ih =>
      refine (ih _).trans ?_
      refine filter_upsert (p := fun render : StoredRender ↦ render.key.fileKey != fileKey)
        (bne_self_eq_false fileKey) (fun render hmatch ↦ ?_) _
      rw [of_decide_eq_true hmatch]
      exact bne_self_eq_false fileKey

end Store

/-! ## Conversions -/

/-- Whether one session can come after another by work on one file: the records of the other files
are the same, and so are all files outside of its directory, except for the archive.  What has come
into the directory has plain names on its way there. -/
structure Confined (settings : Settings) (fileKey : String) (before after : Session) : Prop where
  documents : after.store.documentsBeside fileKey = before.store.documentsBeside fileKey
  renders : after.store.rendersBeside fileKey = before.store.rendersBeside fileKey
  outside : ∀ path, ¬ (siteDir settings fileKey).isPrefixOf path = true →
    path ≠ Path.ofText settings.zipPath → after.files.lookup path = before.files.lookup path
  inside : ∀ path content, siteDir settings fileKey ++ path ≠ Path.ofText settings.zipPath →
    after.files.lookup (siteDir settings fileKey ++ path) = some content →
      before.files.lookup (siteDir settings fileKey ++ path) = some content ∨
        ∀ name ∈ path, Naming.IsPlainName name

namespace Confined

variable {settings : Settings} {fileKey : String} {s t u : Session}

theorem trans (h : Confined settings fileKey s t) (h' : Confined settings fileKey t u) :
    Confined settings fileKey s u where
  documents := h'.documents.trans h.documents
  renders := h'.renders.trans h.renders
  outside path hpath hzip := (h'.outside path hpath hzip).trans (h.outside path hpath hzip)
  inside path content hzip hafter := by
    rcases h'.inside path content hzip hafter with hbetween | hplain
    · exact h.inside path content hzip hbetween
    · exact Or.inr hplain

theorem of_files (hdocuments : t.store.documentsBeside fileKey = s.store.documentsBeside fileKey)
    (hrenders : t.store.rendersBeside fileKey = s.store.rendersBeside fileKey)
    (hfiles : t.files = s.files) : Confined settings fileKey s t where
  documents := hdocuments
  renders := hrenders
  outside path _ _ := by rw [hfiles]
  inside path content _ hafter := Or.inl (hfiles ▸ hafter)

theorem refl (s : Session) : Confined settings fileKey s s := of_files rfl rfl rfl

theorem getDocument (settings : Settings) (fileKey : String) (useCache : Bool) (s : Session) :
    Confined settings fileKey s ((getDocument settings fileKey useCache).outcome s).2 := by
  obtain ⟨xs, _, _, hstep⟩ := documentStep_run settings ⟨fileKey, useCache⟩ s
  have hfiles := keeps_files_getDocument settings fileKey useCache s
  dsimp only [DocumentCall.run] at hstep
  generalize ((Service.getDocument settings fileKey useCache).outcome s).1 = result at hstep
  cases hstep with
  | fetched _ _ hstore =>
      refine of_files ?_ (by rw [hstore]; rfl) hfiles
      rw [hstore]
      exact Store.documentsBeside_saveDocument _ rfl
  | served _ _ _ hstore => exact of_files (by rw [hstore]) (by rw [hstore]) hfiles
  | failed _ hstore => exact of_files (by rw [hstore]) (by rw [hstore]) hfiles

theorem exportNodes (settings : Settings) (fileKey : String) (nodeIds : List String)
    (format : String) (scale : Int) (lastModified : Json) (s : Session) :
    Confined settings fileKey s
      ((exportNodes settings fileKey nodeIds format scale lastModified).outcome s).2 := by
  obtain ⟨xs, _, hstep⟩ :=
    renderStep_run settings ⟨fileKey, nodeIds, format, scale, lastModified⟩ s
  have hfiles := keeps_files_exportNodes settings fileKey nodeIds format scale lastModified s
  dsimp only [RenderCall.run] at hstep
  generalize ((Service.exportNodes settings fileKey nodeIds format scale lastModified).outcome s).1 =
    result at hstep
  cases hstep with
  | exported _ hstore =>
      refine of_files ?_ ?_ hfiles
      · rw [hstore, Store.documentsBeside, Store.documents_saveRenders]
        rfl
      · rw [hstore]
        exact Store.rendersBeside_saveRenders _ _ _ _
  | failed hstore => exact of_files (by rw [hstore]) (by rw [hstore]) hfiles

theorem emptyDirectory (machine : Machine) (s : Session) :
    Confined settings fileKey s
      ((Action.emptyDirectory machine (siteDir settings fileKey)).outcome s).2 := by
  rw [outcome_emptyDirectory]
  cases machine.emptying? (siteDir settings fileKey) with
  | none =>
      refine ⟨rfl, rfl, fun path hpath _ ↦ Files.lookup_removeTree_of_not _ hpath, ?_⟩
      intro path content _ hafter
      exact nomatch (Files.lookup_removeTree _ (Files.isPrefixOf_append _ path)).symm.trans hafter
  | some refusal =>
      refine ⟨rfl, rfl, fun path hpath _ ↦ ?_, fun path content _ hafter ↦ Or.inl ?_⟩
      · exact (Files.lookup_removeTreeBut _ _ _ _).trans (if_pos (by simp [hpath]))
      · exact Files.lookup_of_removeTreeBut hafter

theorem writeData (machine : Machine) {path : Path} (hplain : ∀ name ∈ path, Naming.IsPlainName name)
    (data : String) (s : Session) :
    Confined settings fileKey s
      ((Action.writeData machine (siteDir settings fileKey ++ path) data).outcome s).2 := by
  rw [Action.writeData, outcome_writeFile]
  cases machine.opening? (siteDir settings fileKey ++ path) with
  | some reason => exact refl s
  | none =>
      refine ⟨rfl, rfl, fun other hother _ ↦ ?_, fun other content _ hafter ↦ ?_⟩
      · dsimp only
        rw [Files.lookup_write, if_neg (Files.append_ne_of_not hother path).symm]
      · dsimp only at hafter
        rw [Files.lookup_write] at hafter
        split at hafter
        · next hsame =>
          rw [List.append_cancel_left hsame]
          exact Or.inr hplain
        · exact Or.inl hafter

theorem archiveSite (dir : Path) (s : Session) :
    Confined settings fileKey s ((archiveSite settings dir).outcome s).2 := by
  obtain ⟨fault?, t, hends, hrun⟩ := exists_archiveSite settings dir s
  rw [hrun]
  obtain ⟨files, hfiles⟩ := hends.exists_files
  have hstore : t.store = s.store := by rw [hfiles]
  refine ⟨by rw [hstore], by rw [hstore], fun path _ hzip ↦ hends.lookup_of_ne hzip, ?_⟩
  intro path content hzip hafter
  exact Or.inl ((hends.lookup_of_ne hzip).symm.trans hafter)

theorem convertFile (settings : Settings) (fileKey : String) (useCache : Bool) (s : Session) :
    Confined settings fileKey s ((convertFile settings fileKey useCache).outcome s).2 := by
  have hsteps : ConvertsInStep (Both (Confined settings fileKey s)) settings fileKey
      settings.figmaToken :=
    { getDocument := fun useCache ↦ .of_keeps fun t ht ↦ ht.trans (.getDocument _ _ useCache t)
      exportNodes := fun nodeIds format scale lastModified ↦
        .of_keeps fun t ht ↦ ht.trans (.exportNodes _ _ nodeIds format scale lastModified t)
      emptyDirectory := .of_keeps fun t ht ↦ ht.trans (.emptyDirectory _ t)
      writeData := fun path data hplain ↦
        .of_keeps fun t ht ↦ ht.trans (.writeData _ hplain data t)
      archiveSite := .of_keeps fun t ht ↦ ht.trans (.archiveSite _ t) }
  exact (hsteps.convertFile useCache).keeps (.refl s)

end Confined

/-- However the conversion of a file ends, whatever the ids in its document and whatever the service
replied: the documents and renders of all other files are those from before, and so is everything in
the output directory outside of the directory of the file.  That directory is named by the key, and
what has come into it has a plain name in plain directories, so that nothing written there ends up
elsewhere. -/
theorem convert_confined {settings : Settings} {request : ConversionRequest} {fileKey : String}
    {before after : Session} {result : Except Rejection ConversionAnswer}
    (hkey : fileKey? request.figmaUrl = some fileKey)
    (hzip : ¬ (Path.ofText settings.outputDir).isPrefixOf (Path.ofText settings.zipPath) = true)
    (h : (convert settings request).run before = (result, after)) :
    Naming.IsPlainName fileKey ∧
      after.store.documentsBeside fileKey = before.store.documentsBeside fileKey ∧
      after.store.rendersBeside fileKey = before.store.rendersBeside fileKey ∧
      (∀ path, (Path.ofText settings.outputDir).isPrefixOf path = true →
        ¬ (siteDir settings fileKey).isPrefixOf path = true →
          after.files.lookup path = before.files.lookup path) ∧
      ∀ path content, after.files.lookup (siteDir settings fileKey ++ path) = some content →
        before.files.lookup (siteDir settings fileKey ++ path) = some content ∨
          ∀ name ∈ path, Naming.IsPlainName name := by
  have hconfined := Confined.convertFile settings fileKey request.useCache before
  rw [run_convert_of_some hkey] at h
  obtain ⟨_, rfl⟩ := Prod.mk.inj h
  refine ⟨isPlainName_of_fileKey? hkey, hconfined.documents, hconfined.renders, ?_, ?_⟩
  · intro path hpath hdir
    refine hconfined.outside path hdir ?_
    rintro rfl
    exact hzip hpath
  · intro path content hafter
    refine hconfined.inside path content ?_ hafter
    rw [siteDir, List.append_assoc]
    exact Files.append_ne_of_not hzip _

/-- A session with two files, the first of which has come to hold an id that looks like a way to the
page of the second. -/
def neighbours : Session where
  replies := [.response { body := "\x7b\"lastModified\":\"1\"\x7d" }]
  store :=
    { documents :=
        [⟨"Ab1", .obj [("lastModified", .str "1"), ("document", .obj [("children", .arr [.obj [
          ("children", .arr [.obj [("id", .str "../../Cd2/index.html"), ("type", .str "VECTOR"),
            ("isMask", .bool true)]])]])])], .str "1"⟩, ⟨"Cd2", .obj [], .str "7"⟩]
      renders := [⟨⟨"Cd2", "1:1", "svg"⟩, .str "7", "<svg/>"⟩] }
  files := [(["generated_site", "Ab1", "index.html"], .text "<p>first</p>"),
    (["generated_site", "Cd2", "index.html"], .text "<p>second</p>")]

/-- A request whose address goes on with the key of the second file. -/
def trespass : ConversionRequest where
  figmaUrl := "https://figma.com/file/Ab1/../Cd2"

/-- The first file is converted, and the second one keeps its records and its page. -/
theorem convert_confined_neighbours : ∃ answer after,
    (convert withToken trespass).run neighbours = (.ok answer, after) ∧
      (after.store.documentsBeside "Ab1").map (·.fileKey) = ["Cd2"] ∧
      (after.store.rendersBeside "Ab1").map (·.data) = ["<svg/>"] ∧
      after.files.lookup ["generated_site", "Cd2", "index.html"] =
        some (.text "<p>second</p>") := by
  have hkey : fileKey? trespass.figmaUrl = some "Ab1" := by decide +kernel
  have hcheck : (match ((convert withToken trespass).run neighbours).1 with
      | .ok _ => true
      | .error _ => false) = true := by decide +kernel
  cases hrun : (convert withToken trespass).run neighbours with
  | mk result after =>
      rw [hrun] at hcheck
      cases result with
      | error rejection => exact Bool.noConfusion hcheck
      | ok answer =>
          obtain ⟨_, hdocuments, hrenders, hfiles, _⟩ :=
            convert_confined hkey (by decide +kernel) hrun
          refine ⟨answer, after, rfl, ?_, ?_, ?_⟩
          · rw [hdocuments]
            decide +kernel
          · rw [hrenders]
            decide +kernel
          · exact (hfiles _ (by decide +kernel) (by decide +kernel)).trans rfl

end DesignToWeb.Service
