import Mathlib.Data.List.Nodup
import DesignToWeb.Proofs.Conversion
import DesignToWeb.Proofs.Css.Addresses
import DesignToWeb.Proofs.Html.Addresses
import DesignToWeb.Proofs.Service.Conversion
import DesignToWeb.Proofs.Service.Renders

/-!
# The site that a conversion leaves

The directory of a file is emptied before anything is written to it.  So what
stands in it after a conversion has been put there by one of the steps of that
conversion, and its page and stylesheet point at nothing else.
-/

namespace DesignToWeb.Service

open Service.Action

variable {settings : Settings} {request : ConversionRequest} {before after : Session}

/-! ## What is written -/

namespace AssetExport

variable {fileKey : String} {document : ClassifiedDocument} {lastModified : Json}
  (steps : AssetExport settings fileKey document lastModified before after)

def written : Files :=
  drawingFiles (assetsDir settings fileKey) steps.drawings ++ steps.placeholders ++
    bitmapFiles (assetsDir settings fileKey) settings.bitmapScale steps.bitmaps
      document.imageFillNodes

theorem files_eq : after.files = before.files.writeAll steps.written := by
  have hdrawn := files_of_exportNodes steps.drawings_eq
  have hfilled := files_of_exportNodes steps.bitmaps_eq
  rw [congrArg Session.files steps.after_eq]
  dsimp only at hfilled ⊢
  rw [hfilled, hdrawn, written, Files.writeAll_append, Files.writeAll_append]

end AssetExport

namespace Assembly

variable (steps : Assembly settings request before)

/-- The files that a conversion writes into the emptied directory, one after the other. -/
def written : Files := steps.exports.written ++ siteFiles steps.dir steps.emission steps.manifest

theorem finished_eq :
    steps.finished = (steps.fetched.files.removeTree steps.dir).writeAll steps.written := by
  rw [finished, steps.exports.files_eq, written, Files.writeAll_append]
  rfl

/-- What is put at a path in the directory, by one step or another. -/
inductive Puts : Path → String → Prop where
  | page : Puts ["index.html"] steps.emission.html
  | stylesheet : Puts ["styles.css"] steps.emission.css
  | manifest : Puts ["nodes.json"] (steps.manifest.write .indented)
  | drawing {id data : String} (hdrawing : (id, data) ∈ steps.exports.drawings) :
      Puts ["assets", Naming.fallbackAsset id] data
  | placeholder {id : String} (hid : id ∈ steps.document.fallbackIds)
      (hmissing : steps.exports.drawings.lookup id = none) :
      Puts ["assets", Naming.fallbackAsset id] (placeholderSvg id)
  | bitmap {node : String × ImageFill} {data : String} (hnode : node ∈ steps.document.imageFillNodes)
      (hdata : bitmap? steps.exports.bitmaps node.1 = some data) :
      Puts ["assets", Naming.bitmapAsset node.1 settings.bitmapScale "png"] data

theorem asset_path (name : String) :
    assetsDir settings steps.fileKey ++ [name] = steps.dir ++ ["assets", name] :=
  assetsDir_append settings steps.fileKey name

theorem mem_written {file : Path × Content} :
    file ∈ steps.written ↔ ∃ path text, steps.Puts path text ∧ file = (steps.dir ++ path, .text text) := by
  unfold written AssetExport.written
  rw [List.mem_append, List.mem_append, List.mem_append, drawingFiles, List.mem_map,
    steps.exports.mem_placeholders, mem_bitmapFiles]
  constructor
  · rintro (((⟨⟨id, data⟩, hdrawing, rfl⟩ | ⟨id, hid, hmissing, rfl⟩) |
      ⟨node, hnode, data, hdata, rfl⟩) | hsite)
    · exact ⟨_, _, .drawing hdrawing, by rw [drawingPath, asset_path]⟩
    · exact ⟨_, _, .placeholder hid (Option.not_isSome_iff_eq_none.mp (by simp [hmissing])),
        by rw [drawingPath, asset_path]⟩
    · exact ⟨_, _, .bitmap hnode hdata, by rw [bitmapPath, asset_path]⟩
    · unfold siteFiles textFiles siteTexts at hsite
      simp only [List.map_cons, List.map_nil, List.mem_cons, List.not_mem_nil, or_false] at hsite
      rcases hsite with rfl | rfl | rfl
      · exact ⟨_, _, .page, rfl⟩
      · exact ⟨_, _, .stylesheet, rfl⟩
      · exact ⟨_, _, .manifest, rfl⟩
  · rintro ⟨path, text, hputs, rfl⟩
    cases hputs with
    | page => exact Or.inr (.head _)
    | stylesheet => exact Or.inr (.tail _ (.head _))
    | manifest => exact Or.inr (.tail _ (.tail _ (.head _)))
    | drawing hdrawing =>
        rw [← asset_path]
        exact Or.inl (Or.inl (Or.inl ⟨_, hdrawing, rfl⟩))
    | placeholder hid hmissing =>
        rw [← asset_path]
        exact Or.inl (Or.inl (Or.inr ⟨_, hid, by rw [hmissing]; rfl, rfl⟩))
    | bitmap hnode hdata =>
        rw [← asset_path]
        exact Or.inl (Or.inr ⟨_, hnode, _, hdata, rfl⟩)

/-- Whatever stands in the directory has been put there. -/
theorem puts_of_lookup {path : Path} {content : Content}
    (h : steps.finished.lookup (steps.dir ++ path) = some content) :
    ∃ text, steps.Puts path text ∧ content = .text text := by
  rw [steps.finished_eq] at h
  obtain ⟨path', text, hputs, hfile⟩ := steps.mem_written.mp (Files.mem_of_lookup_emptied h)
  obtain ⟨hpath, hcontent⟩ := Prod.mk.inj hfile
  rw [List.append_cancel_left hpath]
  exact ⟨text, hputs, hcontent⟩

theorem isSome_lookup_iff {path : Path} :
    (steps.finished.lookup (steps.dir ++ path)).isSome = true ↔ ∃ text, steps.Puts path text := by
  constructor
  · intro h
    obtain ⟨content, hcontent⟩ := Option.isSome_iff_exists.mp h
    obtain ⟨text, hputs, _⟩ := steps.puts_of_lookup hcontent
    exact ⟨text, hputs⟩
  · rintro ⟨text, hputs⟩
    rw [steps.finished_eq, Files.isSome_lookup_writeAll]
    exact Or.inl ⟨_, steps.mem_written.mpr ⟨path, text, hputs, rfl⟩⟩

/-! ## Which files there are -/

/-- The paths of a site in its directory: the page, the stylesheet, the manifest, a drawing for
every element that needs one, and a bitmap for every image fill whose export gave any bytes. -/
inductive IsSitePath : Path → Prop where
  | page : IsSitePath ["index.html"]
  | stylesheet : IsSitePath ["styles.css"]
  | manifest : IsSitePath ["nodes.json"]
  | drawing {id : String} (hid : id ∈ steps.document.fallbackIds) :
      IsSitePath ["assets", Naming.fallbackAsset id]
  | bitmap {node : String × ImageFill} {data : String} (hnode : node ∈ steps.document.imageFillNodes)
      (hdata : steps.exports.bitmaps.lookup node.1 = some data) (hbytes : data ≠ "") :
      IsSitePath ["assets", Naming.bitmapAsset node.1 settings.bitmapScale "png"]

theorem mem_fallbackIds_of_mem_drawings {drawing : String × String}
    (h : drawing ∈ steps.exports.drawings) : drawing.1 ∈ steps.document.fallbackIds :=
  mem_of_mem_exportNodes steps.exports.drawings_eq drawing h

theorem isSitePath_iff {path : Path} : steps.IsSitePath path ↔ ∃ text, steps.Puts path text := by
  constructor
  · intro h
    cases h with
    | page => exact ⟨_, .page⟩
    | stylesheet => exact ⟨_, .stylesheet⟩
    | manifest => exact ⟨_, .manifest⟩
    | @drawing id hid =>
        cases hdrawing : steps.exports.drawings.lookup id with
        | none => exact ⟨_, .placeholder hid hdrawing⟩
        | some data =>
            obtain ⟨first, rest, hmem, _⟩ := List.lookup_eq_some_iff.mp hdrawing
            exact ⟨data, .drawing (by rw [hmem]; simp)⟩
    | bitmap hnode hdata hbytes => exact ⟨_, .bitmap hnode (bitmap?_eq_some.mpr ⟨hdata, hbytes⟩)⟩
  · rintro ⟨text, hputs⟩
    cases hputs with
    | page => exact .page
    | stylesheet => exact .stylesheet
    | manifest => exact .manifest
    | drawing hdrawing => exact .drawing (steps.mem_fallbackIds_of_mem_drawings hdrawing)
    | placeholder hid _ => exact .drawing hid
    | bitmap hnode hdata =>
        obtain ⟨hlookup, hbytes⟩ := bitmap?_eq_some.mp hdata
        exact .bitmap hnode hlookup hbytes

/-! ## Addresses -/

def IsAssetAddress (cs : List Char) : Prop :=
  ∃ name, steps.IsSitePath ["assets", name] ∧ cs = ("./assets/" ++ name).toList

theorem quotesOnly_html : Text.QuotesOnly Html.sourceLead steps.IsAssetAddress steps.emission.html := by
  rw [(emit_eq_ok steps.emit_eq).1]
  refine Html.quotesOnly_page _ fun c hc hfallback ↦ ⟨Naming.fallbackAsset c.id, .drawing ?_, rfl⟩
  refine Text.mem_sortedDistinct.mpr (List.mem_map_of_mem (List.mem_filter.mpr ⟨hc, ?_⟩))
  exact beq_iff_eq.mpr hfallback

theorem allAllowed_assets : Css.AllAllowed steps.IsAssetAddress steps.exports.assets := by
  intro asset hasset
  obtain ⟨node, hnode, hdata, haddress⟩ := steps.exports.hasBitmap asset hasset
  obtain ⟨data, hdata⟩ := Option.isSome_iff_exists.mp hdata
  obtain ⟨hlookup, hbytes⟩ := bitmap?_eq_some.mp hdata
  rw [haddress]
  refine ⟨Naming.madeOf_bitmapAddress node.1 settings.bitmapScale,
    Naming.bitmapAsset node.1 settings.bitmapScale "png", .bitmap hnode hlookup hbytes, rfl⟩

theorem quotesOnly_css : Text.QuotesOnly Css.imageLead steps.IsAssetAddress steps.emission.css := by
  refine Css.quotesOnly_stylesheet steps.allAllowed_assets ?_ (emit_eq_ok steps.emit_eq).2
  intro c hc box hbox
  exact direction_of_mem steps.classify_eq hc hbox

/-- The sources of the page and the images of the stylesheet are assets of the site. -/
theorem isSitePath_of_quotedAfter {address : String}
    (h : Text.QuotedAfter "src=" steps.emission.html address ∨
      Text.QuotedAfter "background-image:url(" steps.emission.css address) :
    ∃ name, address = "./assets/" ++ name ∧ steps.IsSitePath ["assets", name] := by
  have hasset : steps.IsAssetAddress address.toList := by
    rcases h with h | h
    · have hlead : Html.sourceLead = "src=".toList := by decide
      have hhtml := steps.quotesOnly_html
      rw [hlead] at hhtml
      exact hhtml.allowed_of_quotedAfter (by decide) h
    · have hlead : Css.imageLead = "background-image:url(".toList := by decide
      have hcss := steps.quotesOnly_css
      rw [hlead] at hcss
      exact hcss.allowed_of_quotedAfter (by decide) h
  obtain ⟨name, hname, hchars⟩ := hasset
  exact ⟨name, String.toList_inj.mp hchars, hname⟩

/-! ## Drawings -/

/-- Where no two drawings share a file, the file of an element holds its own drawing. -/
theorem drawing_of_puts (hslugs : (steps.document.fallbackIds.map Naming.slug).Nodup) {id : String}
    (hid : id ∈ steps.document.fallbackIds) {text : String}
    (h : steps.Puts ["assets", Naming.fallbackAsset id] text) :
    (id, text) ∈ steps.exports.drawings ∨
      steps.exports.drawings.lookup id = none ∧ text = placeholderSvg id := by
  -- with one slug for each id, a file with the name of this drawing is this drawing
  have hsame (other : String) (hother : other ∈ steps.document.fallbackIds)
      (hname : Naming.fallbackAsset id = Naming.fallbackAsset other) : id = other :=
    List.inj_on_of_nodup_map hslugs hid hother (Naming.slug_eq_of_fallbackAsset_eq hname)
  generalize hpath : ["assets", Naming.fallbackAsset id] = path at h
  cases h with
  | page => simp at hpath
  | stylesheet => simp at hpath
  | manifest => simp at hpath
  | @drawing other data hdrawing =>
      have hname : Naming.fallbackAsset id = Naming.fallbackAsset other := by simpa using hpath
      have hother := steps.mem_fallbackIds_of_mem_drawings hdrawing
      rw [hsame other hother hname]
      exact Or.inl hdrawing
  | @placeholder other hother hmissing =>
      have hname : Naming.fallbackAsset id = Naming.fallbackAsset other := by simpa using hpath
      rw [hsame other hother hname]
      exact Or.inr ⟨hmissing, rfl⟩
  | bitmap hnode hdata =>
      exact absurd (by simpa using hpath) (Naming.fallbackAsset_ne_bitmapAsset id _ _ _)

/-! ## The site -/

/-- No asset is put in the place of the page or of the stylesheet. -/
theorem text_of_puts {path : Path} {text : String} (h : steps.Puts path text) :
    (path = ["index.html"] → text = steps.emission.html) ∧
      (path = ["styles.css"] → text = steps.emission.css) := by
  cases h with
  | page => exact ⟨fun _ ↦ rfl, by simp⟩
  | stylesheet => exact ⟨by simp, fun _ ↦ rfl⟩
  | manifest => simp
  | drawing _ => simp
  | placeholder _ _ => simp
  | bitmap _ _ => simp

/-- What a conversion leaves in the directory of its file. -/
structure LeavesSite (after : Session) : Prop where
  /-- The files in the directory are those of the site. -/
  isSome_iff : ∀ path,
    (after.files.lookup (steps.dir ++ path)).isSome = true ↔ steps.IsSitePath path
  /-- None of them is left from before. -/
  puts : ∀ path content, after.files.lookup (steps.dir ++ path) = some content →
    ∃ text, steps.Puts path text ∧ content = .text text
  /-- The page and the stylesheet point at files in the directory. -/
  addresses : ∃ html css,
    after.files.lookup (steps.dir ++ ["index.html"]) = some (.text html) ∧
      after.files.lookup (steps.dir ++ ["styles.css"]) = some (.text css) ∧
      ∀ address, Text.QuotedAfter "src=" html address ∨
          Text.QuotedAfter "background-image:url(" css address →
        ∃ name, address = "./assets/" ++ name ∧
          (after.files.lookup (steps.dir ++ ["assets", name])).isSome = true
  /-- The drawings are those that the export gave, and placeholders where it gave none. -/
  drawings : (steps.document.fallbackIds.map Naming.slug).Nodup →
    ∀ id ∈ steps.document.fallbackIds, ∃ text,
      after.files.lookup (steps.dir ++ ["assets", Naming.fallbackAsset id]) = some (.text text) ∧
        ((id, text) ∈ steps.exports.drawings ∨
          steps.exports.drawings.lookup id = none ∧ text = placeholderSvg id)

/-- The complete site stands in the directory where nothing has been changed there since. -/
theorem leavesSite (hafter : ∀ path,
    after.files.lookup (steps.dir ++ path) = steps.finished.lookup (steps.dir ++ path)) :
    steps.LeavesSite after := by
  have hfiles (path : Path) : (after.files.lookup (steps.dir ++ path)).isSome = true ↔
      steps.IsSitePath path := by
    rw [hafter, steps.isSome_lookup_iff, steps.isSitePath_iff]
  have hputs (path : Path) (content : Content)
      (h : after.files.lookup (steps.dir ++ path) = some content) :
      ∃ text, steps.Puts path text ∧ content = .text text := by
    rw [hafter] at h
    exact steps.puts_of_lookup h
  have hsome {path : Path} (hpath : steps.IsSitePath path) : ∃ text,
      after.files.lookup (steps.dir ++ path) = some (.text text) ∧ steps.Puts path text := by
    obtain ⟨content, hcontent⟩ := Option.isSome_iff_exists.mp ((hfiles path).mpr hpath)
    obtain ⟨text, htext, rfl⟩ := hputs path content hcontent
    exact ⟨text, hcontent, htext⟩
  refine ⟨hfiles, hputs, ?_, ?_⟩
  · obtain ⟨html, hpage, hhtml⟩ := hsome .page
    obtain ⟨css, hstylesheet, hcss⟩ := hsome .stylesheet
    refine ⟨html, css, hpage, hstylesheet, fun address haddress ↦ ?_⟩
    rw [(steps.text_of_puts hhtml).1 rfl, (steps.text_of_puts hcss).2 rfl] at haddress
    obtain ⟨name, hname, hpath⟩ := steps.isSitePath_of_quotedAfter haddress
    exact ⟨name, hname, (hfiles _).mpr hpath⟩
  · intro hslugs id hid
    obtain ⟨text, hlookup, hputs⟩ := hsome (.drawing hid)
    exact ⟨text, hlookup, steps.drawing_of_puts hslugs hid hputs⟩

end Assembly

/-- The archive, which is written last, is no file of the directory. -/
theorem Conversion.leavesSite (run : Conversion settings request before after)
    (hzip : ¬ run.dir.isPrefixOf (Path.ofText settings.zipPath) = true) : run.LeavesSite after := by
  refine run.toAssembly.leavesSite fun path ↦ ?_
  rw [run.after_files, Files.lookup_putArchive, if_neg (Files.append_ne_of_not hzip path)]

/-- A conversion that succeeds leaves a complete site, whatever the store and the files held before
and whatever the service replied. -/
theorem convert_leavesSite {answer : ConversionAnswer}
    (h : (convert settings request).run before = (.ok answer, after))
    (hzip : ¬ (siteDir settings answer.fileKey).isPrefixOf (Path.ofText settings.zipPath) = true) :
    ∃ run : Conversion settings request before after,
      run.fileKey = answer.fileKey ∧ run.LeavesSite after := by
  obtain ⟨run, hkey⟩ := exists_conversion h
  rw [← hkey] at hzip
  exact ⟨run, hkey, run.leavesSite hzip⟩

def poster : Json :=
  .obj [("lastModified", .str "1"), ("document", .obj [("children", .arr [.obj [("id", .str "0:1"),
    ("children", .arr [
      .obj [("id", .str "1:1"), ("type", .str "VECTOR"), ("isMask", .bool true)],
      .obj [("id", .str "1:2"), ("type", .str "RECTANGLE"),
        ("fills", .arr [.obj [("type", .str "IMAGE"), ("imageRef", .str "sky")]])]])]])])]

/-- A session with a stored poster and a page of an earlier conversion, in which the service renders
a mask and a sky. -/
def studio : Session where
  replies := [.response { body := "\x7b\"lastModified\":\"1\"\x7d" },
    .response { body := "\x7b\"images\":\x7b\"1:1\":\"mask\"\x7d\x7d" },
    .response { body := "<svg/>" },
    .response { body := "\x7b\"images\":\x7b\"1:2\":\"sky\"\x7d\x7d" },
    .response { body := "png" }]
  store := { documents := [⟨"Ab1", poster, .str "1"⟩] }
  files := [(["generated_site", "Ab1", "about.html"], .text "")]

/-- The poster is converted, and the page of the earlier conversion is gone. -/
theorem convert_leavesSite_studio : ∃ answer after,
    (convert { figmaToken := some "token" } ⟨"Ab1", true⟩).run studio = (.ok answer, after) ∧
      (studio.files.lookup (siteDir {} "Ab1" ++ ["about.html"])).isSome = true ∧
      after.files.lookup (siteDir {} "Ab1" ++ ["about.html"]) = none ∧
      (after.files.lookup (siteDir {} "Ab1" ++ ["index.html"])).isSome = true := by
  have hcheck : (match ((convert { figmaToken := some "token" } ⟨"Ab1", true⟩).run studio).1 with
      | .ok answer => decide (answer.fileKey = "Ab1")
      | .error _ => false) = true := by decide +kernel
  cases hrun : (convert { figmaToken := some "token" } ⟨"Ab1", true⟩).run studio with
  | mk result after =>
      rw [hrun] at hcheck
      cases result with
      | error rejection => exact Bool.noConfusion hcheck
      | ok answer =>
          have hkey : answer.fileKey = "Ab1" := of_decide_eq_true hcheck
          obtain ⟨run, hsame, hsite⟩ := convert_leavesSite hrun (by rw [hkey]; decide +kernel)
          have hdir : run.dir = siteDir {} "Ab1" := by rw [Assembly.dir, hsame, hkey]; rfl
          refine ⟨answer, after, rfl, by decide +kernel, ?_, ?_⟩
          · rw [← hdir, Option.eq_none_iff_forall_not_mem]
            intro content hcontent
            obtain ⟨text, hputs, _⟩ := hsite.puts _ _ hcontent
            generalize hpath : ["about.html"] = path at hputs
            cases hputs <;> simp at hpath
          · rw [← hdir]
            exact (hsite.isSome_iff _).mpr .page

end DesignToWeb.Service
