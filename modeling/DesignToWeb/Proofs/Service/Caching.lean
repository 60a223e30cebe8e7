import DesignToWeb.Proofs.Service.Tokens

/-!
# What the store gives back

What has been fetched is kept in the store, and is found there again under the same
version: after an export the renders that it returned, node by node, and after a
call for a document that document.  While nothing has changed, asking again comes
to one request for a document and to none for renders.
-/

namespace DesignToWeb.Service

open Service.Action

/-! ## The renders of one node -/

def ofNode (id : String) (images : List (String × String)) : List (String × String) :=
  images.filter (id == ·.1)

theorem ofNode_cons (id : String) (image : String × String) (rest : List (String × String)) :
    ofNode id (image :: rest) = if id == image.1 then image :: ofNode id rest else ofNode id rest :=
  List.filter_cons

theorem ofNode_append (id : String) (images more : List (String × String)) :
    ofNode id (images ++ more) = ofNode id images ++ ofNode id more :=
  List.filter_append ..

theorem lookup_eq_ofNode (id : String) (images : List (String × String)) :
    images.lookup id = (ofNode id images).head?.map Prod.snd := by
  induction images with
  | nil => rfl
  | cons image rest ih =>
      rw [List.lookup_cons, ofNode_cons]
      cases id == image.1 with
      | true => rfl
      | false => exact ih

theorem ofNode_eq_nil_iff {id : String} {images : List (String × String)} :
    ofNode id images = [] ↔ images.lookup id = none := by
  rw [lookup_eq_ofNode, Option.map_eq_none_iff, List.head?_eq_none_iff]

theorem lookup_eq_of_ofNode_eq {id : String} {images others : List (String × String)}
    (h : ofNode id images = ofNode id others) : images.lookup id = others.lookup id := by
  rw [lookup_eq_ofNode, lookup_eq_ofNode, h]

/-! ## What is saved is found again -/

namespace Store

variable (store : Store) {fileKey format : String} {nodeIds : List String} {version : String}

def isAskedOf (fileKey : String) (nodeIds : List String) (format : String) (lastModified : Json)
    (id : String) (r : StoredRender) : Bool :=
  id == r.key.nodeId && isAsked fileKey nodeIds format lastModified r

theorem ofNode_renders? (id : String) (lastModified : Json) :
    ofNode id (store.renders? fileKey nodeIds format lastModified) =
      (store.renders.filter (isAskedOf fileKey nodeIds format lastModified id)).map
        fun r ↦ (r.key.nodeId, r.data) := by
  rw [ofNode, renders?, List.filter_map, List.filter_filter]
  rfl

/-- A render that is saved for another node, or in another format, is not among those that are
found. -/
theorem ofNode_renders?_saveRender_of_ne {id : String} {lastModified : Json}
    {record : StoredRender} (h : record.key.nodeId ≠ id ∨ record.key.format ≠ format) :
    ofNode id ((store.saveRender record).renders? fileKey nodeIds format lastModified) =
      ofNode id (store.renders? fileKey nodeIds format lastModified) := by
  have hother (r : StoredRender) (hkey : r.key = record.key) :
      isAskedOf fileKey nodeIds format lastModified id r = false := by
    rw [isAskedOf, hkey, Bool.and_eq_false_iff, beq_eq_false_iff_ne]
    rcases h with h | h
    · exact Or.inl (Ne.symm h)
    · right
      rw [isAsked, hkey, beq_false_of_ne h, Bool.and_false, Bool.false_and]
  rw [ofNode_renders?, ofNode_renders?]
  refine congrArg _ (filter_upsert (hother record rfl) (fun r hmatch ↦ ?_) _)
  exact hother r (of_decide_eq_true hmatch)

theorem ofNode_renders?_saveRender {id data : String} (hid : id ∈ nodeIds)
    (hnone : ofNode id (store.renders? fileKey nodeIds format (.str version)) = []) :
    ofNode id ((store.saveRender ⟨⟨fileKey, id, format⟩, .str version, data⟩).renders? fileKey
      nodeIds format (.str version)) = [(id, data)] := by
  rw [ofNode_renders?, List.map_eq_nil_iff] at hnone
  have hasked : isAskedOf fileKey nodeIds format (.str version) id
      ⟨⟨fileKey, id, format⟩, .str version, data⟩ = true := by
    simp [isAskedOf, isAsked, hid, Json.same, Json.alike]
  rw [ofNode_renders?, saveRender, filter_upsert_of_eq_nil hasked hnone]
  rfl

/-- After renders that were missing have been saved, those of any node are found where they were,
or as they were saved. -/
theorem ofNode_renders?_saveRenders {images : List (String × String)}
    (hnodup : (images.map Prod.fst).Nodup) (hasked : ∀ image ∈ images, image.1 ∈ nodeIds)
    (hmissing : ∀ image ∈ images,
      ofNode image.1 (store.renders? fileKey nodeIds format (.str version)) = []) (id : String) :
    ofNode id ((store.saveRenders fileKey images format (.str version)).renders? fileKey nodeIds
        format (.str version)) =
      ofNode id (store.renders? fileKey nodeIds format (.str version) ++ images) := by
  induction images generalizing store with
  | nil => rw [List.append_nil]; rfl
  | cons image rest ih =>
      obtain ⟨hnew, hnodup⟩ := List.nodup_cons.mp hnodup
      obtain ⟨hfirst, hasked⟩ := List.forall_mem_cons.mp hasked
      obtain ⟨hnone, hmissing⟩ := List.forall_mem_cons.mp hmissing
      let saved := store.saveRender ⟨⟨fileKey, image.1, format⟩, .str version, image.2⟩
      have hother (other : String) (hne : image.1 ≠ other) :
          ofNode other (saved.renders? fileKey nodeIds format (.str version)) =
            ofNode other (store.renders? fileKey nodeIds format (.str version)) :=
        ofNode_renders?_saveRender_of_ne store (Or.inl hne)
      have hrest := ih saved hnodup hasked fun other hmem ↦ by
        rw [hother other.1 fun heq ↦ hnew (heq ▸ List.mem_map_of_mem hmem)]
        exact hmissing other hmem
      refine hrest.trans ?_
      rw [ofNode_append, ofNode_append]
      by_cases hid : image.1 = id
      · subst hid
        rw [ofNode_renders?_saveRender store hfirst hnone, hnone, ofNode_cons, if_pos BEq.rfl]
        rfl
      · rw [hother id hid, ofNode_cons, if_neg (by simpa using Ne.symm hid)]

/-- Renders in another format do not get in the way. -/
theorem ofNode_renders?_saveRenders_of_ne {other : String} (hne : other ≠ format)
    (images : List (String × String)) (lastModified : Json) (id : String) :
    ofNode id ((store.saveRenders fileKey images other lastModified).renders? fileKey nodeIds
        format lastModified) =
      ofNode id (store.renders? fileKey nodeIds format lastModified) := by
  induction images generalizing store with
  | nil => rfl
  | cons image rest ih =>
      exact (ih _).trans (ofNode_renders?_saveRender_of_ne store (Or.inr hne))

end Store

/-! ## Exports that are repeated -/

variable {settings : Settings} {s t : Session} {images : List (String × String)}

/-- Whether two exports have found the same renders of each node. -/
def SameRenders (images others : List (String × String)) : Prop :=
  ∀ id, ofNode id images = ofNode id others

/-- What an export returns was in the store, or was missing there and is saved now. -/
theorem exists_fetched_of_exportNodes {call : RenderCall}
    (h : call.run settings s = (.ok images, t)) :
    ∃ fetched, images = call.stored s ++ fetched ∧
      (fetched.map Prod.fst).Sublist (call.missing s) ∧
      t.store = s.store.saveRenders call.fileKey fetched call.format call.lastModified := by
  obtain ⟨xs, _, hends⟩ := exportEnds_run settings call s
  rw [h] at hends
  cases hends with
  | stored _ _ hstore =>
      exact ⟨[], (List.append_nil _).symm, List.nil_sublist _, hstore⟩
  | downloaded _ _ hdownloads hstore => exact ⟨_, rfl, hdownloads.sublist, hstore⟩
  | givenUp _ hstore =>
      exact ⟨[], (List.append_nil _).symm, List.nil_sublist _, hstore⟩

/-- After an export of a version, the store holds just what the export has returned. -/
theorem sameRenders_stored_of_run {call : RenderCall} {version : String}
    (hversion : call.lastModified = .str version) (h : call.run settings s = (.ok images, t)) :
    SameRenders (call.stored t) images := by
  obtain ⟨fetched, rfl, hsub, hstore⟩ := exists_fetched_of_exportNodes h
  have hmissing (image : String × String) (himage : image ∈ fetched) :
      image.1 ∈ call.missing s := hsub.subset (List.mem_map_of_mem himage)
  intro id
  rw [RenderCall.stored, hstore, hversion]
  rw [RenderCall.stored, hversion]
  refine Store.ofNode_renders?_saveRenders s.store (hsub.nodup (call.nodup_missing s))
    (fun image himage ↦ ?_) (fun image himage ↦ ?_) id
  · exact Text.mem_sortedDistinct.mpr (RenderCall.mem_missing.mp (hmissing image himage)).1
  · have hnone := (RenderCall.mem_missing.mp (hmissing image himage)).2
    rw [RenderCall.stored, hversion] at hnone
    exact ofNode_eq_nil_iff.mpr hnone

/-- An export that finds everything in the store does nothing else. -/
theorem run_of_stored {call : RenderCall} (hstore : t.store = s.store)
    (hfound : SameRenders (call.stored s) images)
    (hall : ∀ nodeId ∈ call.nodeIds, (images.lookup nodeId).isSome = true) :
    call.run settings t = (.ok (call.stored s), t) := by
  have hstored : call.stored t = call.stored s := by rw [RenderCall.stored, hstore]; rfl
  have hmissing : call.missing t = [] := by
    refine List.eq_nil_iff_forall_not_mem.mpr fun nodeId hnode ↦ ?_
    obtain ⟨hasked, hnone⟩ := RenderCall.mem_missing.mp hnode
    have hsome := hall nodeId hasked
    rw [← lookup_eq_of_ofNode_eq (hfound nodeId), ← hstored, hnone] at hsome
    exact Bool.noConfusion hsome
  rw [RenderCall.run_of_missing_eq_nil hmissing, hstored]

/-! ## Documents that have not changed -/

/-- However the service is called, every stored document has its own time of change. -/
theorem isCoherent_runCalls (calls : List Call) (hs : s.store.IsCoherent) :
    (runCalls settings calls s).2.store.IsCoherent := by
  have hget (fileKey : String) (useCache : Bool) (t : Session) (ht : t.store.IsCoherent) :
      ((getDocument settings fileKey useCache).outcome t).2.store.IsCoherent := by
    obtain ⟨xs, _, _, hstep⟩ := documentStep_run settings ⟨fileKey, useCache⟩ t
    exact hstep.isCoherent ht
  have hexport (fileKey : String) (nodeIds : List String) (format : String) (scale : Int)
      (lastModified : Json) (t : Session) (ht : t.store.IsCoherent) :
      ((exportNodes settings fileKey nodeIds format scale lastModified).outcome
        t).2.store.IsCoherent := by
    obtain ⟨xs, _, hstep⟩ :=
      renderStep_run settings ⟨fileKey, nodeIds, format, scale, lastModified⟩ t
    dsimp only [RenderCall.run] at hstep
    generalize ((exportNodes settings fileKey nodeIds format scale lastModified).outcome t).1 =
      result at hstep
    cases hstep with
    | exported _ hstore =>
        constructor
        · rw [hstore, Store.documents_saveRenders]
          exact ht.nodup
        · rw [hstore, Store.documents_saveRenders]
          exact ht.lastModified_eq
    | failed hstore => rwa [hstore]
  refine runCalls_keeps (P := fun t ↦ t.store.IsCoherent) (fun fileKey ↦ ?_) calls hs
  refine convertsInStep_of_files (fun _ ↦ .of_keeps fun _ ht ↦ ht)
    (fun useCache ↦ .of_keeps (hget fileKey useCache)) ?_
  exact fun nodeIds format scale lastModified ↦
    .of_keeps (hexport fileKey nodeIds format scale lastModified)

section Documents

variable {fileKey : String} {useCache : Bool} {json : Json}

/-- The document that a call returns stands in the store, with its own time of change. -/
theorem exists_record_of_getDocument (hs : s.store.IsCoherent)
    (h : (getDocument settings fileKey useCache).outcome s = (.ok json, t)) :
    ∃ record, t.store.document? fileKey = some record ∧ record.document = json ∧
      field json "lastModified" = .ok record.lastModified := by
  obtain ⟨xs, _, _, hstep⟩ := documentStep_run settings ⟨fileKey, useCache⟩ s
  rw [DocumentCall.run, h] at hstep
  cases hstep with
  | fetched _ hlast hstore =>
      refine ⟨recordOf fileKey json, ?_, rfl, hlast⟩
      rw [hstore, Store.document?_saveDocument, recordOf, BEq.rfl]
      rfl
  | served _ _ hfresh hstore =>
      obtain ⟨record, hrecord, rfl, _⟩ := hfresh
      refine ⟨record, hstore ▸ hrecord, rfl, hs.lastModified_eq record ?_⟩
      exact List.mem_of_find?_eq_some hrecord

theorem lacksToken_of_tokenHeaders {fault : Fault} (h : tokenHeaders settings = .error fault) :
    LacksToken settings := by
  unfold tokenHeaders at h
  cases htoken : settings.figmaToken with
  | none => exact Or.inl htoken
  | some token =>
      rw [htoken] at h
      dsimp only at h
      split at h
      · next hempty => exact Or.inr (by rw [htoken, hempty])
      · exact nomatch h

/-- Whoever has a document has asked for it, and so has a token. -/
theorem exists_headers_of_getDocument
    (h : (getDocument settings fileKey useCache).outcome s = (.ok json, t)) :
    ∃ headers, tokenHeaders settings = .ok headers := by
  cases hheaders : tokenHeaders settings with
  | ok headers => exact ⟨headers, rfl⟩
  | error fault =>
      have hkeeps := (convertsInStep_of_lacksToken (lacksToken_of_tokenHeaders hheaders) s
        fileKey).getDocument useCache |>.keeps (s := s) rfl
      obtain ⟨xs, hfollows, _, hstep⟩ := documentStep_run settings ⟨fileKey, useCache⟩ s
      rw [DocumentCall.run, h] at hfollows hstep
      rw [h] at hkeeps
      have hxs : xs = [] := by
        have hrequests := hfollows.requests_eq.symm.trans hkeeps
        exact List.map_eq_nil_iff.mp (List.append_right_eq_self.mp hrequests)
      subst hxs
      cases hstep with
      | fetched hfetched _ _ => cases hfetched
      | served _ _ hfresh _ =>
          obtain ⟨_, _, _, x, hx, _⟩ := hfresh
          exact absurd hx List.not_mem_nil

theorem isGiven_of_field {version : String}
    (h : field json "lastModified" = .ok (.str version)) : json.isGiven = true := by
  cases json with
  | obj fields =>
      cases fields with
      | nil => exact nomatch h
      | cons first rest => rfl
  | _ => exact nomatch h

/-- Whether the next reply says that a version is the present one. -/
def Session.confirms (s : Session) (version : String) : Bool :=
  match s.nextReply.answer >>= (field · "lastModified") with
  | .ok current => current.isStr version
  | .error _ => false

theorem isStr_iff {j : Json} {text : String} : j.isStr text = true ↔ j = .str text := by
  cases j <;> simp [Json.isStr]

theorem current_eq_of_confirms {version : String} (h : s.confirms version = true) :
    (s.nextReply.answer >>= (field · "lastModified")) = .ok (.str version) := by
  unfold Session.confirms at h
  cases hcurrent : s.nextReply.answer >>= (field · "lastModified") with
  | error fault =>
      rw [hcurrent] at h
      exact Bool.noConfusion h
  | ok current =>
      rw [hcurrent] at h
      exact congrArg Except.ok (isStr_iff.mp h)

/-- A stored document whose version is confirmed is returned after the one request. -/
theorem outcome_getDocument_of_confirms {record : StoredDocument} {version : String}
    {headers : List (String × String)} (hheaders : tokenHeaders settings = .ok headers)
    (hrecord : s.store.document? fileKey = some record)
    (hgiven : record.document.isGiven = true) (hversion : record.lastModified = .str version)
    (hne : version ≠ "") (hconfirms : s.confirms version = true) :
    (getDocument settings fileKey true).outcome s =
      (.ok record.document, s.sent (probeRequest settings fileKey headers)) := by
  have hprobe : (probe settings fileKey).outcome s =
      (.ok (.str version), s.sent (probeRequest settings fileKey headers)) := by
    rw [outcome_probe, hheaders]
    exact Prod.ext (current_eq_of_confirms hconfirms) rfl
  have hfresh : ((Json.str version).isGiven && (Json.str version).same record.lastModified) =
      true := by
    rw [hversion]
    simp [Json.isGiven, Json.same, Json.alike, hne]
  rw [outcome_getDocument, if_pos rfl, cachedDocument?, outcome_bind, outcome_store]
  dsimp only
  rw [hrecord]
  dsimp only
  rw [hgiven, Bool.not_true, if_neg Bool.false_ne_true, outcome_bind, hprobe]
  dsimp only
  rw [if_pos hfresh]
  rfl

end Documents

end DesignToWeb.Service
