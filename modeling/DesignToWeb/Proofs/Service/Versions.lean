import Mathlib.Data.List.Induction
import DesignToWeb.Proofs.Service.Renders

/-!
# Versions of stored renders

A render is stored with the version of its file.  A call that names a version is
served no render of another one.  A call that names none is served whatever the
store holds.
-/

namespace DesignToWeb.Service

open Service.Action

variable {settings : Settings} {s : Session}

def afterRenderCalls (settings : Settings) (calls : List RenderCall) (s : Session) : Session :=
  calls.foldl (fun s call ↦ (call.run settings s).2) s

theorem afterRenderCalls_concat (calls : List RenderCall) (call : RenderCall) :
    afterRenderCalls settings (calls ++ [call]) s =
      (call.run settings (afterRenderCalls settings calls s)).2 :=
  List.foldl_append

def exchangesOf (settings : Settings) (calls : List RenderCall) (call : RenderCall) (s : Session) :
    List Exchange :=
  exchanges (afterRenderCalls settings calls s)
    (call.run settings (afterRenderCalls settings calls s)).2

/-- Whether a render was stored by one of the calls: the call downloaded it, and stored it with the
file, the format and the version that it had been given. -/
def StoredBy (settings : Settings) (calls : List RenderCall) (s : Session) (render : StoredRender) :
    Prop :=
  ∃ earlier call later, calls = earlier ++ call :: later ∧
    render ∈ (afterRenderCalls settings (earlier ++ [call]) s).store.renders ∧
    ∃ image, render = call.record image ∧
      Rendered settings call.fileKey call.format call.scale
        (exchangesOf settings earlier call s) image

theorem StoredBy.append {calls : List RenderCall} {render : StoredRender}
    (h : StoredBy settings calls s render) (more : List RenderCall) :
    StoredBy settings (calls ++ more) s render := by
  obtain ⟨earlier, call, later, rfl, h⟩ := h
  exact ⟨earlier, call, later ++ more, by rw [List.append_assoc, List.cons_append], h⟩

theorem mem_or_storedBy {calls : List RenderCall} {render : StoredRender}
    (h : render ∈ (afterRenderCalls settings calls s).store.renders) :
    render ∈ s.store.renders ∨ StoredBy settings calls s render := by
  -- by induction from the last call back: what it has not stored was there before it
  induction calls using List.reverseRecOn with
  | nil => exact Or.inl h
  | append_singleton calls call ih =>
      obtain ⟨xs, hfollows, hstep⟩ :=
        renderStep_run settings call (afterRenderCalls settings calls s)
      have hbefore (hmem : render ∈ (afterRenderCalls settings calls s).store.renders) :
          render ∈ s.store.renders ∨ StoredBy settings (calls ++ [call]) s render :=
        (ih hmem).imp_right (·.append [call])
      rw [afterRenderCalls_concat] at h
      generalize hresult : (call.run settings (afterRenderCalls settings calls s)).1 = result
        at hstep
      cases hstep with
      | failed hstore => exact hbefore (hstore ▸ h)
      | exported hrendered hstore =>
          rcases Store.mem_renders_saveRenders (hstore ▸ h) with ⟨image, himage, hrender⟩ | hmem
          · refine Or.inr ⟨calls, call, [], rfl, ?_, image, hrender, ?_⟩
            · rw [afterRenderCalls_concat]
              exact h
            · rw [exchangesOf, hfollows.exchanges_eq]
              exact hrendered image himage
          · exact hbefore hmem

/-- What a call returns was downloaded while it ran, or it was stored before for the same file, node
and format, and for the same version too if the call names one. -/
theorem returned_of_version {calls : List RenderCall} {call : RenderCall}
    {images : List (String × String)}
    (h : (call.run settings (afterRenderCalls settings calls s)).1 = .ok images) :
    ∀ image ∈ images,
      Rendered settings call.fileKey call.format call.scale (exchangesOf settings calls call s)
          image ∨
        ∃ render, render.key = ⟨call.fileKey, image.1, call.format⟩ ∧ render.data = image.2 ∧
          (call.lastModified.isGiven = true →
            render.lastModified.same call.lastModified = true) ∧
          (render ∈ s.store.renders ∨ StoredBy settings calls s render) := by
  intro image himage
  obtain ⟨xs, hfollows, hstep⟩ := renderStep_run settings call (afterRenderCalls settings calls s)
  rw [exchangesOf, hfollows.exchanges_eq]
  rw [h] at hstep
  cases hstep with
  | exported hrendered _ =>
      rcases List.mem_append.mp himage with hstored | hfetched
      · obtain ⟨_, render, hmem, hkey, hdata, hversion⟩ := Store.mem_renders?.mp hstored
        exact Or.inr ⟨render, hkey, hdata, hversion, mem_or_storedBy hmem⟩
      · exact Or.inl (hrendered image hfetched)

/-- A session in which a star is rendered once. -/
def starRoom : Session where
  replies := [.response { body := "\x7b\"images\":\x7b\"1:1\":\"star\"\x7d\x7d" },
    .response { body := "<svg/>" }]

def starCall (lastModified : Json) : RenderCall :=
  ⟨"Ab1", ["1:1"], "svg", 1, lastModified⟩

def starRun (lastModified : Json) : Except Fault (List (String × String)) :=
  ((starCall lastModified).run withToken
    (afterRenderCalls withToken [starCall (.str "1")] starRoom)).1

/-- A second call for the version of the first is served what the first has stored. -/
theorem returned_of_version_star : starRun (.str "1") = .ok [("1:1", "<svg/>")] ∧
    ∃ render, render.data = "<svg/>" ∧ render.lastModified.same (.str "1") = true ∧
      StoredBy withToken [starCall (.str "1")] starRoom render := by
  have hrun : starRun (.str "1") = .ok [("1:1", "<svg/>")] :=
    Outcome.eq_ok_of_isOkWith (by decide +kernel)
  refine ⟨hrun, ?_⟩
  rcases returned_of_version hrun _ (List.mem_singleton_self _) with
    hrendered | ⟨render, _, hdata, hversion, hstored⟩
  · -- nothing is sent in the second call
    exact absurd hrendered (not_rendered_of_isEmpty (by decide +kernel))
  · exact ⟨render, hdata, hversion (by decide), hstored.resolve_left List.not_mem_nil⟩

/-- A call that names no version can be served a render of any version. -/
theorem not_returned_of_version_unnamed : ¬ ∀ (settings : Settings) (s : Session)
    (calls : List RenderCall) (call : RenderCall) (images : List (String × String)),
    s.store.renders = [] →
    (call.run settings (afterRenderCalls settings calls s)).1 = .ok images →
    ∀ image ∈ images,
      Rendered settings call.fileKey call.format call.scale (exchangesOf settings calls call s)
          image ∨
        ∃ render, render.key = ⟨call.fileKey, image.1, call.format⟩ ∧ render.data = image.2 ∧
          render.lastModified.same call.lastModified = true ∧
          StoredBy settings calls s render := by
  intro h
  have hrun : starRun .null = .ok [("1:1", "<svg/>")] :=
    Outcome.eq_ok_of_isOkWith (by decide +kernel)
  rcases h _ starRoom _ _ _ rfl hrun _ (List.mem_singleton_self _) with
    hrendered | ⟨render, _, _, hsame, earlier, call, later, hcalls, _, image, rfl, _⟩
  · exact absurd hrendered (not_rendered_of_isEmpty (by decide +kernel))
  · have hcall : call ∈ [starCall (.str "1")] := by
      rw [hcalls]
      exact List.mem_append_right earlier List.mem_cons_self
    rw [List.mem_singleton.mp hcall] at hsame
    have hother : (Json.str "1").same .null = false := by decide
    exact Bool.noConfusion (hother.symm.trans hsame)

end DesignToWeb.Service
