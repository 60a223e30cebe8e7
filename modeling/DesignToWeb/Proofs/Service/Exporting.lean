import DesignToWeb.Proofs.Service.Asking

/-!
# How an export ends

An export asks for addresses and downloads what stands at them.  Downloads never
fail, and a failure of the service while asking only means that nothing is
downloaded.  What ends an export without a result is an answer of a shape that is
not expected, or a limit with a delay that cannot be waited.
-/

namespace DesignToWeb.Service

open Service.Action

/-! ## Which address counts -/

namespace RenderUrls

variable {urls more : RenderUrls} {nodeId : String}

/-- The last address that is given for a node. -/
def named? (urls : RenderUrls) (nodeId : String) : Option Json :=
  (urls.reverse.find? fun entry ↦ entry.1.isStr nodeId).map (·.2)

theorem named?_cons (entry : Json × Json) (rest : RenderUrls) (nodeId : String) :
    named? (entry :: rest) nodeId =
      (named? rest nodeId).or (if entry.1.isStr nodeId then some entry.2 else none) := by
  unfold named?
  rw [List.reverse_cons, List.find?_append, Option.map_or, List.find?_singleton]
  split <;> rfl

theorem get_cons (key url : Json) (rest : RenderUrls) (nodeId : String) :
    get ((key, url) :: rest) nodeId = if key.isStr nodeId then url else get rest nodeId := by
  simp only [get, List.find?_cons]
  cases key.isStr nodeId <;> rfl

theorem alike_of_isStr {a b : Json} (ha : a.isStr nodeId = true) (hb : b.isStr nodeId = true) :
    a.alike b = true := by
  cases a with
  | str s =>
      cases b with
      | str t =>
          rw [Json.alike]
          exact beq_iff_eq.mpr ((eq_of_beq ha).trans (eq_of_beq hb).symm)
      | null | bool _ | int _ | float _ | nan | arr _ | obj _ => exact Bool.noConfusion hb
  | null | bool _ | int _ | float _ | nan | arr _ | obj _ => exact Bool.noConfusion ha

theorem get_insert (urls : RenderUrls) (key url : Json) (nodeId : String) :
    (urls.insert key url).get nodeId = if key.isStr nodeId then url else urls.get nodeId := by
  induction urls with
  | nil => rw [insert, get_cons]
  | cons first rest ih =>
      obtain ⟨k, u⟩ := first
      unfold insert
      split
      · next halike =>
        rw [get_cons, get_cons, isStr_eq_of_alike halike]
        split <;> rfl
      · next hunlike =>
        rw [get_cons, get_cons, ih]
        by_cases hkey : key.isStr nodeId = true
        · have hk : k.isStr nodeId = false :=
            Bool.eq_false_iff.mpr fun hk ↦ hunlike (alike_of_isStr hk hkey)
          rw [if_pos hkey, if_pos hkey, hk]
          rfl
        · rw [if_neg hkey, if_neg hkey]

theorem get_merge (urls more : RenderUrls) (nodeId : String) :
    (urls.merge more).get nodeId = (more.named? nodeId).getD (urls.get nodeId) := by
  induction more generalizing urls with
  | nil => rfl
  | cons entry rest ih =>
      change (merge (urls.insert entry.1 entry.2) rest).get nodeId = _
      rw [ih, get_insert, named?_cons]
      cases named? rest nodeId with
      | some url => rfl
      | none =>
          rw [Option.none_or, Option.getD_none]
          split <;> rfl

end RenderUrls

/-- The last address for a node among those that were given one after the other. -/
def lastNamed? (xs : List Exchange) (nodeId : String) : Option Json :=
  xs.reverse.findSome? fun x ↦ x.2.addresses?.bind (·.named? nodeId)

theorem get_gathered (urls : RenderUrls) (xs : List Exchange) (nodeId : String) :
    (gathered urls xs).get nodeId = (lastNamed? xs nodeId).getD (urls.get nodeId) := by
  induction xs generalizing urls with
  | nil => rfl
  | cons x rest ih =>
      have hlast : lastNamed? (x :: rest) nodeId =
          (lastNamed? rest nodeId).or (x.2.addresses?.bind (·.named? nodeId)) := by
        rw [lastNamed?, List.reverse_cons, List.findSome?_append, List.findSome?_singleton]
        rfl
      change (gathered (urls.merge (x.2.addresses?.getD [])) rest).get nodeId = _
      rw [ih, hlast, RenderUrls.get_merge]
      cases lastNamed? rest nodeId with
      | some url => rfl
      | none =>
          cases x.2.addresses? with
          | none => rfl
          | some more => rfl

/-! ## Downloads -/

namespace Downloads

variable {settings : Settings} {urls : RenderUrls} {nodeIds : List String} {xs : List Exchange}
  {images : List (String × String)}

/-- Without addresses nothing is downloaded. -/
theorem eq_nil (h : Downloads settings [] nodeIds xs images) : xs = [] ∧ images = [] := by
  induction nodeIds generalizing xs images with
  | nil =>
      cases h
      exact ⟨rfl, rfl⟩
  | cons nodeId rest ih =>
      cases h with
      | skipped _ hrest => exact ih hrest
      | asked hgiven _ _ => exact Bool.noConfusion hgiven

theorem exists_reply (h : Downloads settings urls nodeIds xs images) {nodeId : String}
    (hnode : nodeId ∈ nodeIds) (hgiven : (urls.get nodeId).isGiven = true) :
    ∃ reply, (downloadRequest settings (urls.get nodeId), reply) ∈ xs ∧
      ∀ data, reply.Delivers data → (nodeId, data) ∈ images := by
  induction h with
  | nil => exact absurd hnode List.not_mem_nil
  | skipped hskipped _ ih =>
      rcases List.mem_cons.mp hnode with rfl | hnode
      · rw [hskipped] at hgiven
        exact Bool.noConfusion hgiven
      · exact ih hnode
  | asked _ reply _ ih =>
      rcases List.mem_cons.mp hnode with rfl | hnode
      · refine ⟨reply, List.mem_cons_self, fun data hdata ↦ List.mem_append_left _ ?_⟩
        rw [Reply.data?_eq_some.mpr hdata]
        exact List.mem_singleton_self _
      · obtain ⟨own, hown, himages⟩ := ih hnode
        exact ⟨own, List.mem_cons_of_mem _ hown,
          fun data hdata ↦ List.mem_append_right _ (himages data hdata)⟩

end Downloads

/-! ## Requests to the service -/

/-- The exchanges with the service that renders, which is shown a token.  What stands at an address
is got without one. -/
def toService (xs : List Exchange) : List Exchange := xs.filter fun x ↦ x.1.headers.isSome

theorem toService_append (xs ys : List Exchange) :
    toService (xs ++ ys) = toService xs ++ toService ys := List.filter_append xs ys

theorem Downloads.toService_eq {settings : Settings} {urls : RenderUrls} {nodeIds : List String}
    {xs : List Exchange} {images : List (String × String)}
    (h : Downloads settings urls nodeIds xs images) : toService xs = [] := by
  induction h with
  | nil => rfl
  | skipped _ _ ih => exact ih
  | asked _ _ _ ih => exact ih

theorem toService_eq_self {settings : Settings} {fileKey format : String} {scale : Int}
    {xs : List Exchange} (h : ∀ x ∈ xs, x.1.AsksRenders settings fileKey format scale) :
    toService xs = xs := by
  rw [toService, List.filter_eq_self]
  intro x hx
  obtain ⟨nodeIds, headers, hrequest⟩ := h x hx
  rw [hrequest]
  rfl

/-! ## Answers of another shape -/

/-- Whether an answer is no JSON, or no object, or has something else than an object for the
addresses that is no list of pairs either. -/
inductive Response.Unusable (r : Response) : Fault → Prop
  | notJson {error : Json.ReadError} (h : Json.read r.body = .error error) :
      Unusable r (.notJson error)
  | noObject {body : Json} (h : Json.read r.body = .ok body) (hbody : body.attributes? = none) :
      Unusable r (.noFields body)
  | images {body : Json} {fields : Attributes} {fault : Fault} (h : Json.read r.body = .ok body)
      (hbody : body.attributes? = some fields) (herror : (fields.get "err").isGiven = false)
      (hgiven : (fields.get "images").isGiven = true)
      (hobject : (fields.get "images").attributes? = none)
      (hfault : RenderUrls.ofAnswer (fields.get "images") = .error fault) : Unusable r fault

theorem attributes?_of_ofAnswer {images : Json} {fault : Fault}
    (h : RenderUrls.ofAnswer images = .error fault) :
    images.isGiven = true ∧ images.attributes? = none := by
  unfold RenderUrls.ofAnswer at h
  split at h
  · exact nomatch h
  · next hgiven =>
    refine ⟨by simpa using hgiven, ?_⟩
    split at h
    · exact nomatch h
    · rfl
    · rfl
    · next hobject _ _ =>
      cases images with
      | obj fields => exact (hobject fields rfl).elim
      | _ => rfl

theorem unusable_of_answeredUrls {r : Response} {fault : Fault} (h : answeredUrls r = .error fault)
    (hfault : ∀ status reason, fault ≠ .serviceFailure status reason) : r.Unusable fault := by
  rw [answeredUrls_eq, Response.json] at h
  cases hbody : Json.read r.body with
  | error error =>
      simp only [hbody] at h
      obtain rfl := Except.error.inj h
      exact .notJson hbody
  | ok body =>
      cases hfields : body.attributes? with
      | none =>
          simp only [hbody, hfields] at h
          obtain rfl := Except.error.inj h
          exact .noObject hbody hfields
      | some fields =>
          simp only [hbody, hfields] at h
          split at h
          · exact absurd (Except.error.inj h).symm (hfault _ _)
          · next herror =>
            obtain ⟨hgiven, hobject⟩ := attributes?_of_ofAnswer h
            exact .images hbody hfields (Bool.eq_false_iff.mpr herror) hgiven hobject h

/-! ## Exports -/

/-- How an export can end, with the exchanges that it takes. -/
inductive ExportEnds (settings : Settings) (call : RenderCall) (before after : Session)
    (xs : List Exchange) : Except Fault (List (String × String)) → Prop
  /-- Everything was in the store. -/
  | stored (hxs : xs = []) (hmissing : call.missing before = [])
      (hstore : after.store = before.store) :
      ExportEnds settings call before after xs (.ok (call.stored before))
  /-- The service was asked for what was missing, and it was downloaded. -/
  | downloaded {asks downloads : List Exchange} {fetched : List (String × String)}
      (hxs : xs = asks ++ downloads)
      (hasks : WentOn settings call.fileKey call.format call.scale asks)
      (hdownloads : Downloads settings (gathered [] asks) (call.missing before) downloads fetched)
      (hstore : after.store =
        before.store.saveRenders call.fileKey fetched call.format call.lastModified) :
      ExportEnds settings call before after xs (.ok (call.stored before ++ fetched))
  /-- The service failed, and nothing was downloaded. -/
  | givenUp {status : Int} {reason : String}
      (h : Stops settings call.fileKey call.format call.scale xs (.serviceFailure status reason))
      (hstore : after.store = before.store) :
      ExportEnds settings call before after xs (.ok (call.stored before))
  | broken {fault : Fault} (h : Stops settings call.fileKey call.format call.scale xs fault)
      (hfault : ∀ status reason, fault ≠ .serviceFailure status reason)
      (hstore : after.store = before.store) :
      ExportEnds settings call before after xs (.error fault)

theorem Stops.asks {settings : Settings} {fileKey format : String} {scale : Int}
    {xs : List Exchange} {fault : Fault} (h : Stops settings fileKey format scale xs fault) :
    ∀ x ∈ xs, x.1.AsksRenders settings fileKey format scale := by
  cases h with
  | noToken hxs _ => exact fun x hx ↦ (hxs x hx).1
  | failed heq hearlier hlast _ =>
      rw [heq, List.forall_mem_append, List.forall_mem_singleton]
      exact ⟨fun x hx ↦ (hearlier x hx).1, hlast⟩

theorem exportEnds_run (settings : Settings) (call : RenderCall) (s : Session) :
    ∃ xs, Follows s xs (call.run settings s).2 ∧
      ExportEnds settings call s (call.run settings s).2 xs (call.run settings s).1 := by
  by_cases hmissing : call.missing s = []
  · rw [RenderCall.run_of_missing_eq_nil hmissing]
    exact ⟨[], .refl s, .stored rfl hmissing rfl⟩
  · obtain ⟨xs, hasked, hends⟩ := ends_renderUrlsOrNone settings call.fileKey call.format
      call.scale (call.missing s) s
    rw [← RenderCall.asking] at hasked hends
    have hgoes := call.goes settings s
    generalize call.run settings s = ended at hgoes ⊢
    obtain ⟨result, t⟩ := ended
    cases hgoes with
    | failed hasking hstore =>
        rw [hasking] at hasked hends
        obtain _ | _ | ⟨hstops, hfault⟩ := hends
        exact ⟨xs, hasked, .broken hstops hfault hstore⟩
    | saved hasking hgot hdownloads hstore =>
        rw [hasking] at hasked hends
        refine ⟨_, hasked.trans hgot, ?_⟩
        cases hends with
        | wentOn hasks => exact .downloaded rfl hasks hdownloads hstore
        | givenUp hstops =>
            -- no addresses, no downloads: the exchanges are those of asking
            obtain ⟨rfl, rfl⟩ := hdownloads.eq_nil
            rw [List.append_nil, List.append_nil]
            exact .givenUp hstops hstore

end DesignToWeb.Service
