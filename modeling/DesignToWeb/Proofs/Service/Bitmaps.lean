import DesignToWeb.Proofs.Naming
import DesignToWeb.Proofs.Service.Conversion
import DesignToWeb.Proofs.Service.Documents
import DesignToWeb.Proofs.Service.Renders

/-!
# Work at one scale

A bitmap is asked for at a scale, and its file is named for the scale.  An export
of bitmaps, and with it a conversion, does all its work at one scale: each bitmap
that it stores, returns or writes was in the store before, or is rendered at that
scale while it runs.
-/

namespace DesignToWeb.Service

open Service.Action

variable {settings : Settings} {scale : Int} {fileKey : String} {image : String × String}
  {s t u : Session}

/-! ## Bitmaps on record -/

/-- Whether a bitmap of a node is in the store, at whatever scale. -/
def Store.HoldsBitmap (store : Store) (fileKey : String) (image : String × String) : Prop :=
  ∃ render ∈ store.renders, render.key = ⟨fileKey, image.1, "png"⟩ ∧ render.data = image.2

/-- Whether a bitmap was rendered at a scale, and downloaded, between two sessions. -/
def RenderedBetween (settings : Settings) (before after : Session) (fileKey : String)
    (scale : Int) (image : String × String) : Prop :=
  Rendered settings fileKey "png" scale (exchanges before after) image

/-- Whether a bitmap was in the store already, or has been rendered at a scale since. -/
def Known (settings : Settings) (scale : Int) (before after : Session) (fileKey : String)
    (image : String × String) : Prop :=
  before.store.HoldsBitmap fileKey image ∨
    RenderedBetween settings before after fileKey scale image

def IsBitmapPath (path : Path) : Prop := ∃ dir scale id, path = bitmapPath dir scale id

/-- Whether one session can come after another by work at one scale: the bitmaps in the store and
those in files, which are named for the scale, were known or have been rendered at the scale. -/
structure AtScale (settings : Settings) (scale : Int) (before after : Session) : Prop where
  follows : ∃ xs, Follows before xs after
  stored : ∀ fileKey image, after.store.HoldsBitmap fileKey image →
    Known settings scale before after fileKey image
  written : ∀ path data, IsBitmapPath path → (path, Content.text data) ∈ after.files →
    (path, Content.text data) ∈ before.files ∨ ∃ dir id fileKey,
      path = bitmapPath dir scale id ∧ Known settings scale before after fileKey (id, data)

theorem RenderedBetween.mono_right {xs ys : List Exchange} (hst : Follows s xs t)
    (htu : Follows t ys u) (h : RenderedBetween settings s t fileKey scale image) :
    RenderedBetween settings s u fileKey scale image := by
  rw [RenderedBetween, hst.exchanges_append htu]
  exact Rendered.mono (List.sublist_append_left _ _) h

theorem RenderedBetween.mono_left {xs ys : List Exchange} (hst : Follows s xs t)
    (htu : Follows t ys u) (h : RenderedBetween settings t u fileKey scale image) :
    RenderedBetween settings s u fileKey scale image := by
  rw [RenderedBetween, hst.exchanges_append htu]
  exact Rendered.mono (List.sublist_append_right _ _) h

namespace AtScale

theorem trans (h : AtScale settings scale s t) (h' : AtScale settings scale t u) :
    AtScale settings scale s u := by
  obtain ⟨xs, hst⟩ := h.follows
  obtain ⟨ys, htu⟩ := h'.follows
  have hearly {fileKey : String} {image : String × String}
      (hknown : Known settings scale s t fileKey image) :
      Known settings scale s u fileKey image := hknown.imp_right (·.mono_right hst htu)
  have hlate {fileKey : String} {image : String × String}
      (hknown : Known settings scale t u fileKey image) :
      Known settings scale s u fileKey image := by
    rcases hknown with hstored | hrendered
    · -- what is in the store in between has come there before
      exact hearly (h.stored fileKey image hstored)
    · exact Or.inr (hrendered.mono_left hst htu)
  refine ⟨⟨xs ++ ys, hst.trans htu⟩, fun fileKey image hstored ↦ ?_, fun path data hpath hfile ↦ ?_⟩
  · exact hlate (h'.stored fileKey image hstored)
  · rcases h'.written path data hpath hfile with hfile | ⟨dir, id, fileKey, hname, hknown⟩
    · rcases h.written path data hpath hfile with hfile | ⟨dir, id, fileKey, hname, hknown⟩
      · exact Or.inl hfile
      · exact Or.inr ⟨dir, id, fileKey, hname, hearly hknown⟩
    · exact Or.inr ⟨dir, id, fileKey, hname, hlate hknown⟩

theorem of_kept {xs : List Exchange} (hfollows : Follows s xs t)
    (hrenders : t.store.renders = s.store.renders) (hfiles : t.files ⊆ s.files) :
    AtScale settings scale s t where
  follows := ⟨xs, hfollows⟩
  stored fileKey image hstored := by
    rw [Store.HoldsBitmap, hrenders] at hstored
    exact Or.inl hstored
  written path data _ hfile := Or.inl (hfiles hfile)

theorem refl (s : Session) : AtScale settings scale s s :=
  of_kept (.refl s) rfl (List.Subset.refl _)

end AtScale

/-! ## Written files -/

theorem not_isBitmapPath {dir : Path} {name : String}
    (h : ∀ scale id, name ≠ Naming.bitmapAsset id scale "png") :
    ¬ IsBitmapPath (dir ++ [name]) := by
  rintro ⟨dir', scale, id, hpath⟩
  have hlast := congrArg List.getLast? hpath
  rw [bitmapPath, List.getLast?_concat, List.getLast?_concat] at hlast
  exact h scale id (Option.some.inj hlast)

theorem not_isBitmapPath_drawingPath (dir : Path) (id : String) :
    ¬ IsBitmapPath (drawingPath dir id) :=
  not_isBitmapPath fun scale other ↦ Naming.fallbackAsset_ne_bitmapAsset id other scale _

theorem atScale_writeAll {entries : Files}
    (h : ∀ entry ∈ entries, IsBitmapPath entry.1 → ∀ data, entry.2 ≠ .text data) :
    AtScale settings scale s { s with files := s.files.writeAll entries } where
  follows := ⟨[], .of_same rfl rfl⟩
  stored fileKey image hstored := Or.inl hstored
  written path data hpath hfile := by
    rcases Files.mem_writeAll hfile with hentry | hbefore
    · exact absurd rfl (h _ hentry hpath data)
    · exact Or.inl hbefore

/-! ## Exports -/

/-- An export adds bitmaps to the store at its own scale, and writes no files. -/
theorem atScale_run (call : RenderCall) (hscale : call.format = "png" → call.scale = scale)
    (s : Session) : AtScale settings scale s (call.run settings s).2 := by
  obtain ⟨xs, hfollows, hstep⟩ := renderStep_run settings call s
  have hfiles : (call.run settings s).2.files = s.files :=
    keeps_files_exportNodes settings call.fileKey call.nodeIds call.format call.scale
      call.lastModified s
  generalize (call.run settings s).1 = result at hstep
  cases hstep with
  | failed hstore => exact .of_kept hfollows (by rw [hstore]) (by rw [hfiles]; exact fun _ h ↦ h)
  | exported hrendered hstore =>
      refine ⟨⟨xs, hfollows⟩, fun fileKey image hstored ↦ ?_, fun path data _ hfile ↦ ?_⟩
      · obtain ⟨render, hmem, hkey, hdata⟩ := hstored
        rcases Store.mem_renders_saveRenders (hstore ▸ hmem) with ⟨own, hown, rfl⟩ | hbefore
        · obtain ⟨rfl, hnode, hformat⟩ := RenderKey.mk.inj hkey
          have hsame : own = image := Prod.ext hnode hdata
          have himage := hrendered own hown
          rw [hsame, hformat, hscale hformat] at himage
          exact Or.inr (by rwa [RenderedBetween, hfollows.exchanges_eq])
        · exact Or.inl ⟨render, hbefore, hkey, hdata⟩
      · exact Or.inl (hfiles ▸ hfile)

theorem known_of_run {call : RenderCall} {images : List (String × String)}
    (hformat : call.format = "png") (h : (call.run settings s).1 = .ok images) :
    ∀ image ∈ images,
      Known settings call.scale s (call.run settings s).2 call.fileKey image := by
  obtain ⟨xs, hfollows, hstep⟩ := renderStep_run settings call s
  rw [h] at hstep
  cases hstep with
  | exported hrendered _ =>
      intro image himage
      rcases List.mem_append.mp himage with hstored | hfetched
      · obtain ⟨_, render, hmem, hkey, hdata, _⟩ := Store.mem_renders?.mp hstored
        exact Or.inl ⟨render, hmem, hformat ▸ hkey, hdata⟩
      · have himage := hrendered image hfetched
        rw [hformat] at himage
        exact Or.inr (by rwa [RenderedBetween, hfollows.exchanges_eq])

/-! ## Actions at one scale -/

/-- Whether an action does all its work at one scale, however it ends. -/
def WorksAt {α : Type} (settings : Settings) (scale : Int) (a : Action α) : Prop :=
  ∀ s, AtScale settings scale s (a.outcome s).2

namespace WorksAt

variable {α β : Type}

theorem pure (x : α) : WorksAt settings scale (pure x : Action α) := .refl

theorem ofExcept (x : Except Fault α) : WorksAt settings scale (Action.ofExcept x) := .refl

theorem bind {a : Action α} {f : α → Action β} (ha : WorksAt settings scale a)
    (hf : ∀ x, WorksAt settings scale (f x)) : WorksAt settings scale (a >>= f) := by
  intro s
  have has := ha s
  rw [outcome_bind]
  cases hrun : a.outcome s with
  | mk result t =>
      rw [hrun] at has
      cases result with
      | ok x => exact has.trans (hf x t)
      | error fault => exact has

theorem getDocument (fileKey : String) (useCache : Bool) :
    WorksAt settings scale (getDocument settings fileKey useCache) := by
  intro s
  let call : DocumentCall := ⟨fileKey, useCache⟩
  obtain ⟨xs, hfollows, _, hstep⟩ := documentStep_run settings call s
  have hrenders : (call.run settings s).2.store.renders = s.store.renders := by
    generalize (call.run settings s).1 = result at hstep
    cases hstep with
    | fetched _ _ hstore => rw [hstore]; rfl
    | served _ _ _ hstore => rw [hstore]
    | failed _ hstore => rw [hstore]
  have hfiles : (call.run settings s).2.files = s.files :=
    keeps_files_getDocument settings fileKey useCache s
  exact .of_kept hfollows hrenders (hfiles ▸ List.Subset.refl _)

theorem emptyDirectory (machine : Machine) (dir : Path) :
    WorksAt settings scale (Action.emptyDirectory machine dir) := by
  intro s
  rw [outcome_emptyDirectory]
  cases machine.emptying? dir with
  | none | some _ => exact .of_kept (.of_same rfl rfl) rfl fun _ hfile ↦ (List.mem_filter.mp hfile).1

theorem of_writing {machine : Machine} {files : Files} {fault? : Option Fault}
    (hfiles : ∀ file ∈ files, ¬ IsBitmapPath file.1) (h : WritingEnds machine files s fault? t) :
    AtScale settings scale s t := by
  obtain ⟨written, hwritten, rfl⟩ := h.exists_subset
  exact atScale_writeAll fun entry hentry hpath ↦ absurd hpath (hfiles entry (hwritten hentry))

theorem exportFallbacks (fileKey : String) (nodeIds : List String) (dir : Path)
    (lastModified : Json) :
    WorksAt settings scale (exportFallbacks settings fileKey nodeIds dir lastModified) := by
  have hformat : "svg" ≠ "png" := by decide
  refine .bind (atScale_run ⟨fileKey, nodeIds, "svg", 1, lastModified⟩ (absurd · hformat)) ?_
  intro drawings s
  obtain ⟨fault?, t, hends, hrun⟩ := exists_writeRenders settings.machine dir drawings s
  rw [hrun]
  refine of_writing (fun file hfile ↦ ?_) hends
  obtain ⟨drawing, _, rfl⟩ := List.mem_map.mp hfile
  exact not_isBitmapPath_drawingPath dir drawing.1

theorem fillMissing (machine : Machine) (dir : Path) (paths : AssetPaths) (ids : List String) :
    WorksAt settings scale (fillMissing dir paths ids machine) := by
  intro s
  obtain ⟨paths', files, hfiles, fault?, t, hends, hrun⟩ :=
    exists_fillMissing machine dir paths ids s
  rw [hrun]
  refine of_writing (fun file hfile ↦ ?_) hends
  obtain ⟨id, _, _, rfl⟩ := (hfiles file).mp hfile
  exact not_isBitmapPath_drawingPath dir id

theorem exportBitmaps (fileKey : String) (nodes : List (String × ImageFill)) (dir : Path)
    (scale : Int) (lastModified : Json) :
    WorksAt settings scale (exportBitmaps settings fileKey nodes dir scale lastModified) := by
  intro s
  let call : RenderCall := ⟨fileKey, nodes.map (·.1), "png", scale, lastModified⟩
  have hrun : AtScale settings scale s (call.run settings s).2 := atScale_run call (fun _ ↦ rfl) s
  have hknown := @known_of_run settings s call
  rw [Service.exportBitmaps, outcome_bind]
  dsimp only [call, RenderCall.run] at hrun hknown
  cases hresult :
      (exportNodes settings fileKey (nodes.map (·.1)) "png" scale lastModified).outcome s with
  | mk result t =>
      rw [hresult] at hrun hknown
      cases result with
      | error fault => exact hrun
      | ok rendered =>
          obtain ⟨_, _, fault?, u, hends, hwritten⟩ :=
            exists_writeBitmaps settings.machine dir scale rendered [] nodes t
          obtain ⟨written, hsubset, rfl⟩ := hends.exists_subset
          dsimp only
          rw [hwritten]
          refine ⟨?_, hrun.stored, fun path data hpath hfile ↦ ?_⟩
          · obtain ⟨xs, hfollows⟩ := hrun.follows
            exact ⟨xs ++ [], hfollows.trans (.of_same rfl rfl)⟩
          · -- a file holds a bitmap that the export has returned, or it was there before
            rcases Files.mem_writeAll hfile with hentry | hbefore
            · obtain ⟨node, _, own, hown, hfile⟩ := mem_bitmapFiles.mp (hsubset hentry)
              obtain ⟨hpath, hdata⟩ := Prod.mk.inj hfile
              obtain ⟨hlookup, _⟩ := bitmap?_eq_some.mp hown
              rw [Content.text.inj hdata]
              exact Or.inr
                ⟨dir, node.1, fileKey, hpath, hknown rfl rfl _ (mem_of_lookup hlookup)⟩
            · exact hrun.written path data hpath hbefore

theorem exportAssets (fileKey : String) (document : ClassifiedDocument) (lastModified : Json) :
    WorksAt settings settings.bitmapScale
      (exportAssets settings fileKey document lastModified) := by
  refine .bind (.exportFallbacks fileKey _ _ lastModified) fun _ ↦ ?_
  refine .bind (.fillMissing _ _ _ _) fun _ ↦ ?_
  exact .exportBitmaps fileKey _ _ _ lastModified

theorem writeTexts (machine : Machine) (dir : Path) (emission : Emission) (manifest : Json) :
    WorksAt settings scale (writeTexts machine dir (siteTexts emission manifest)) := by
  intro s
  obtain ⟨fault?, t, hends, hrun⟩ := exists_writeTexts machine dir (siteTexts emission manifest) s
  obtain ⟨files, hfiles, rfl⟩ := hends.exists_written
  rw [hrun]
  refine atScale_writeAll fun entry hentry hpath ↦ absurd hpath ?_
  obtain ⟨text, htext, hentry⟩ := hfiles entry hentry
  have hname : '@' ∉ text.1.toList := by
    have hmem := name_mem_of_mem_siteTexts htext
    revert hmem
    generalize text.1 = name
    revert name
    decide
  rw [hentry]
  exact not_isBitmapPath fun scale id ↦ Naming.ne_bitmapAsset_of_notMem hname scale id _

theorem archiveSite (dir : Path) : WorksAt settings scale (archiveSite settings dir) := by
  intro s
  obtain ⟨fault?, t, hends, hrun⟩ := exists_archiveSite settings dir s
  rw [hrun]
  obtain ⟨files, rfl⟩ := hends.exists_files
  exact ⟨⟨[], .of_same rfl rfl⟩, fun _ _ hstored ↦ Or.inl hstored,
    fun path data _ hfile ↦ Or.inl (hends.mem_of_text hfile)⟩

theorem convertFile (fileKey : String) (useCache : Bool) :
    WorksAt settings settings.bitmapScale (convertFile settings fileKey useCache) := by
  refine .bind (.getDocument fileKey useCache) fun _ ↦ ?_
  refine .bind (.ofExcept _) fun lastModified ↦ ?_
  refine .bind (.ofExcept _) fun document ↦ ?_
  refine .bind (.emptyDirectory _ _) fun _ ↦ ?_
  refine .bind (.exportAssets fileKey document lastModified) fun _ ↦ ?_
  refine .bind (.ofExcept _) fun emission ↦ ?_
  refine .bind (.writeTexts _ _ emission _) fun _ ↦ ?_
  refine .bind (.archiveSite _) fun _ ↦ ?_
  exact .bind (.ofExcept _) fun _ ↦ .bind (.ofExcept _) fun _ ↦ .pure _

end WorksAt

end DesignToWeb.Service
