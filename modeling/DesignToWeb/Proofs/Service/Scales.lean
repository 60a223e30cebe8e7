import DesignToWeb.Proofs.Service.Bitmaps

/-!
# Scales of stored bitmaps

The store keeps one bitmap for a node, at whatever scale it was rendered.  So a
bitmap that a call returns or writes was rendered at the scale of that call, or
else at the scale of an earlier one that has left it in the store.
-/

namespace DesignToWeb.Service

open Service.Action

/-! ## Calls -/

/-- A call that takes renders: for the renders themselves, for the bitmaps of a stylesheet, or for
a whole conversion. -/
inductive AssetCall where
  | renders (own : RenderCall)
  | bitmaps (fileKey : String) (nodes : List (String × ImageFill)) (dir : Path) (scale : Int)
      (lastModified : Json)
  | conversion (request : ConversionRequest)

namespace AssetCall

def scale (settings : Settings) : AssetCall → Int
  | renders own => own.scale
  | bitmaps _ _ _ scale _ => scale
  | conversion _ => settings.bitmapScale

def run (settings : Settings) (call : AssetCall) (s : Session) : Session :=
  match call with
  | renders own => (own.run settings s).2
  | bitmaps fileKey nodes dir scale lastModified =>
    ((exportBitmaps settings fileKey nodes dir scale lastModified).outcome s).2
  | conversion request => ((convert settings request).run s).2

theorem run_convert_snd (settings : Settings) (request : ConversionRequest) (s : Session) :
    ((convert settings request).run s).2 =
      match fileKey? request.figmaUrl with
      | none => s
      | some fileKey => ((convertFile settings fileKey request.useCache).outcome s).2 := by
  unfold convert
  cases fileKey? request.figmaUrl with
  | none => rfl
  | some fileKey =>
      dsimp only
      rw [StateT.run_bind]
      -- a fault becomes a rejection, which leaves the session as it is
      cases hrun : (convertFile settings fileKey request.useCache).outcome s with
      | mk result t =>
          unfold outcome at hrun
          rw [hrun]
          cases result with
          | ok answer => rfl
          | error fault => rfl

theorem atScale_run (settings : Settings) (call : AssetCall) (s : Session) :
    AtScale settings (call.scale settings) s (call.run settings s) := by
  cases call with
  | renders own => exact Service.atScale_run own (fun _ ↦ rfl) s
  | bitmaps fileKey nodes dir scale lastModified =>
      exact WorksAt.exportBitmaps fileKey nodes dir scale lastModified s
  | conversion request =>
      rw [run, run_convert_snd]
      split
      · exact .refl s
      · exact WorksAt.convertFile _ request.useCache s

/-- Whether the bitmaps that a call returns have a property, and with them those that it writes, all
to files that are named for the scale of the call. -/
structure AllBitmaps (settings : Settings) (call : AssetCall) (before : Session)
    (P : String → String × String → Prop) : Prop where
  returned : ∀ own images, call = .renders own → own.format = "png" →
    (own.run settings before).1 = .ok images → ∀ image ∈ images, P own.fileKey image
  written : ∀ path data, IsBitmapPath path →
    (path, Content.text data) ∈ (call.run settings before).files →
      (path, Content.text data) ∈ before.files ∨
        ∃ dir id fileKey, path = bitmapPath dir (call.scale settings) id ∧ P fileKey (id, data)

theorem allBitmaps_known (settings : Settings) (call : AssetCall) (s : Session) :
    call.AllBitmaps settings s
      (Known settings (call.scale settings) s (call.run settings s)) where
  returned own images hcall hformat hresult := by
    rw [hcall]
    exact known_of_run hformat hresult
  written := (call.atScale_run settings s).written

theorem AllBitmaps.mono {call : AssetCall} {P Q : String → String × String → Prop}
    (h : call.AllBitmaps settings s P) (hPQ : ∀ fileKey image, P fileKey image → Q fileKey image) :
    call.AllBitmaps settings s Q where
  returned own images hcall hformat hresult image himage :=
    hPQ _ image (h.returned own images hcall hformat hresult image himage)
  written path data hpath hfile := by
    rcases h.written path data hpath hfile with hbefore | ⟨dir, id, fileKey, hname, hP⟩
    · exact Or.inl hbefore
    · exact Or.inr ⟨dir, id, fileKey, hname, hPQ fileKey _ hP⟩

end AssetCall

/-! ## Runs of calls -/

def afterAssetCalls (settings : Settings) (calls : List AssetCall) (s : Session) : Session :=
  calls.foldl (fun s call ↦ call.run settings s) s

/-- Whether a bitmap has been rendered, in the course of some calls, at the scale of one of them. -/
def RenderedByOne (settings : Settings) (calls : List AssetCall) (s : Session) (fileKey : String)
    (image : String × String) : Prop :=
  ∃ call ∈ calls, RenderedBetween settings s (afterAssetCalls settings calls s) fileKey
    (call.scale settings) image

theorem follows_afterAssetCalls (settings : Settings) (calls : List AssetCall) (s : Session) :
    (∃ xs, Follows s xs (afterAssetCalls settings calls s)) ∧
      ∀ fileKey image, (afterAssetCalls settings calls s).store.HoldsBitmap fileKey image →
        s.store.HoldsBitmap fileKey image ∨ RenderedByOne settings calls s fileKey image := by
  induction calls generalizing s with
  | nil => exact ⟨⟨[], .refl s⟩, fun _ _ hstored ↦ Or.inl hstored⟩
  | cons call rest ih =>
      have hcall := call.atScale_run settings s
      obtain ⟨xs, hfirst⟩ := hcall.follows
      obtain ⟨⟨ys, hrest⟩, hstored⟩ := ih (call.run settings s)
      refine ⟨⟨xs ++ ys, hfirst.trans hrest⟩, fun fileKey image hafter ↦ ?_⟩
      rcases hstored fileKey image hafter with hbefore | ⟨other, hother, hrendered⟩
      · -- it stood in the store when the first call had been made
        rcases hcall.stored fileKey image hbefore with hstart | hrendered
        · exact Or.inl hstart
        · exact Or.inr ⟨call, List.mem_cons_self, hrendered.mono_right hfirst hrest⟩
      · exact Or.inr ⟨other, List.mem_cons_of_mem call hother, hrendered.mono_left hfirst hrest⟩

/-- Where a bitmap that a call returns or writes can come from: it was rendered at the scale of the
call while that ran, or at the scale of a call before, or it was in the store from the start. -/
def IsSourced (settings : Settings) (s : Session) (calls : List AssetCall) (call : AssetCall)
    (fileKey : String) (image : String × String) : Prop :=
  RenderedBetween settings (afterAssetCalls settings calls s)
      (call.run settings (afterAssetCalls settings calls s)) fileKey (call.scale settings) image ∨
    RenderedByOne settings calls s fileKey image ∨ s.store.HoldsBitmap fileKey image

variable {settings : Settings} {s : Session} {calls : List AssetCall} {call : AssetCall}

theorem isSourced_of_known {fileKey : String} {image : String × String}
    (h : Known settings (call.scale settings) (afterAssetCalls settings calls s)
      (call.run settings (afterAssetCalls settings calls s)) fileKey image) :
    IsSourced settings s calls call fileKey image := by
  rcases h with hbefore | hrendered
  · exact Or.inr ((follows_afterAssetCalls settings calls s).2 fileKey image hbefore).symm
  · exact Or.inl hrendered

variable (settings s calls call) in
/-- However renders are asked for, at whatever scales, and whatever the service replies: a bitmap
that a call returns, or writes to a file named for its scale, has been rendered at that scale in the
call or at the scale of an earlier call, unless it was in the store from the start. -/
theorem allBitmaps_isSourced :
    call.AllBitmaps settings (afterAssetCalls settings calls s)
      (IsSourced settings s calls call) :=
  (call.allBitmaps_known settings _).mono fun _ _ ↦ isSourced_of_known

/-- As long as the scale stays the same, every bitmap has the scale that its file is named for. -/
theorem allBitmaps_of_one_scale {scale : Int} (hs : s.store.renders = [])
    (hcalls : ∀ other ∈ call :: calls, other.scale settings = scale) :
    call.AllBitmaps settings (afterAssetCalls settings calls s) fun fileKey image ↦
      RenderedBetween settings s (call.run settings (afterAssetCalls settings calls s)) fileKey
        scale image := by
  obtain ⟨xs, hearlier⟩ := (follows_afterAssetCalls settings calls s).1
  obtain ⟨ys, hcall⟩ := (call.atScale_run settings (afterAssetCalls settings calls s)).follows
  refine (call.allBitmaps_known settings _).mono fun fileKey image hknown ↦ ?_
  rcases isSourced_of_known hknown with hrendered | ⟨other, hother, hrendered⟩ | hstored
  · rw [hcalls call List.mem_cons_self] at hrendered
    exact hrendered.mono_left hearlier hcall
  · rw [hcalls other (List.mem_cons_of_mem call hother)] at hrendered
    exact hrendered.mono_right hearlier hcall
  · obtain ⟨render, hmem, _⟩ := hstored
    rw [hs] at hmem
    exact absurd hmem List.not_mem_nil

/-- A session in which a dot is rendered once. -/
def dotRoom : Session where
  replies := [.response { body := "\x7b\"images\":\x7b\"1:1\":\"dot\"\x7d\x7d" },
    .response { body := "dot" }]

def dotCall (scale : Int) : RenderCall := ⟨"Ab1", ["1:1"], "png", scale, .null⟩

def dotRendered : Session := afterAssetCalls withToken [.renders (dotCall 1)] dotRoom

theorem run_dotCall_two : ((dotCall 2).run withToken dotRendered).1 = .ok [("1:1", "dot")] :=
  Outcome.eq_ok_of_isOkWith (by decide +kernel)

/-- What the call at scale two returns was rendered for the call at scale one. -/
theorem allBitmaps_isSourced_dot :
    RenderedByOne withToken [.renders (dotCall 1)] dotRoom "Ab1" ("1:1", "dot") := by
  have hall := allBitmaps_isSourced withToken dotRoom [.renders (dotCall 1)]
    (.renders (dotCall 2))
  rcases hall.returned (dotCall 2) _ rfl rfl run_dotCall_two _ (List.mem_singleton_self _) with
    hrendered | hearlier | ⟨render, hmem, _⟩
  · -- nothing is sent in the second call
    exact absurd hrendered (not_rendered_of_isEmpty (by decide +kernel))
  · exact hearlier
  · exact absurd hmem List.not_mem_nil

def Request.namesScale (request : Request) (scale : Int) : Bool :=
  (request.params.getD []).any fun param ↦ param.1 == "scale" && param.2.same (.int scale)

/-- A bitmap at the scale of another call can be returned. -/
theorem not_allBitmaps_renderedBetween : ¬ ∀ (settings : Settings) (s : Session)
    (calls : List AssetCall) (call : AssetCall), s.store.renders = [] →
    call.AllBitmaps settings (afterAssetCalls settings calls s) fun fileKey image ↦
      RenderedBetween settings s (call.run settings (afterAssetCalls settings calls s)) fileKey
        (call.scale settings) image := by
  intro h
  have hall := h withToken dotRoom [.renders (dotCall 1)] (.renders (dotCall 2)) rfl
  obtain ⟨asked, got, url, hsub, ⟨nodeIds, headers, hasked⟩, _⟩ :=
    hall.returned (dotCall 2) _ rfl rfl run_dotCall_two _ (List.mem_singleton_self _)
  have hnone : (exchanges dotRoom ((dotCall 2).run withToken dotRendered).2).all
      (fun x ↦ !x.1.namesScale 2) = true := by decide +kernel
  have hmem : asked ∈ exchanges dotRoom ((dotCall 2).run withToken dotRendered).2 :=
    hsub.subset List.mem_cons_self
  have hnamed : asked.1.namesScale 2 = true := by
    rw [hasked]
    rfl
  have hunnamed := List.all_eq_true.mp hnone asked hmem
  rw [hnamed] at hunnamed
  exact Bool.noConfusion hunnamed

end DesignToWeb.Service
