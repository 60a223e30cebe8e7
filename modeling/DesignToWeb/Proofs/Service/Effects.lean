import DesignToWeb.Proofs.Service.Attempts
import DesignToWeb.Proofs.Service.Exporting

/-!
# What an export does

An export asks for the addresses of the nodes whose renders are not in the store.  It
downloads the render of each of them that has an address, one after the other, and
returns and saves what has come.  Nothing else is asked for, downloaded or changed.
-/

namespace DesignToWeb.Service

open Service.Action

/-! ## Saving -/

namespace Store

/-- Whether a store has these renders saved in addition, each in place of one of the same key, and
is the same otherwise. -/
structure Saves (before : Store) (records : List StoredRender) (after : Store) : Prop where
  documents_eq : after.documents = before.documents
  find?_eq (key : RenderKey) : after.renders.find? (·.key == key) =
    (records.find? (·.key == key)).or (before.renders.find? (·.key == key))
  /-- What has none of the keys is left in its place. -/
  filter_eq (isOther : StoredRender → Bool)
    (h : ∀ record ∈ records, ∀ r, r.key = record.key → isOther r = false) :
    after.renders.filter isOther = before.renders.filter isOther
  nodup : (before.renders.map (·.key)).Nodup → (after.renders.map (·.key)).Nodup

theorem saves_nil (store : Store) : store.Saves [] store where
  documents_eq := rfl
  find?_eq _ := rfl
  filter_eq _ _ := rfl
  nodup h := h

theorem Saves.cons {before after : Store} {record : StoredRender} {records : List StoredRender}
    (h : (before.saveRender record).Saves records after)
    (hrecord : ∀ other ∈ records, other.key ≠ record.key) :
    before.Saves (record :: records) after where
  documents_eq := h.documents_eq
  find?_eq key := by
    have hsaved : (before.saveRender record).renders.find? (·.key == key) =
        if record.key == key then some record else before.renders.find? (·.key == key) :=
      find?_upsert StoredRender.key record key before.renders
    rw [h.find?_eq, hsaved, List.find?_cons]
    cases hkey : record.key == key with
    | false => rfl
    | true =>
        have hnone : records.find? (·.key == key) = none := by
          rw [List.find?_eq_none, ← eq_of_beq hkey]
          exact fun other hother heq ↦ hrecord other hother (eq_of_beq heq)
        rw [hnone]
        rfl
  filter_eq isOther hother := by
    obtain ⟨hfirst, hrest⟩ := List.forall_mem_cons.mp hother
    rw [h.filter_eq isOther hrest]
    exact filter_upsert (hfirst record rfl) (fun r hr ↦ hfirst r (of_decide_eq_true hr)) _
  nodup hbefore := h.nodup (nodup_upsert StoredRender.key record hbefore)

theorem saves_saveRenders (call : RenderCall) {images : List (String × String)}
    (hnodup : (images.map Prod.fst).Nodup) (store : Store) :
    store.Saves (images.map call.record)
      (store.saveRenders call.fileKey images call.format call.lastModified) := by
  induction images generalizing store with
  | nil => exact saves_nil store
  | cons image rest ih =>
      obtain ⟨himage, hrest⟩ := List.nodup_cons.mp hnodup
      refine (ih hrest (store.saveRender (call.record image))).cons ?_
      rw [List.forall_mem_map]
      intro other hother hkey
      have hsame : other.1 = image.1 := congrArg RenderKey.nodeId hkey
      rw [← hsame] at himage
      exact himage (List.mem_map_of_mem hother)

end Store

/-! ## Asking -/

section Asking

variable {settings : Settings} {path format : String} {scale : Int} {steps : List Step}

theorem Attempts.asksAt {params : List (String × Json)} {attempt left : Nat}
    {result : Except Fault BatchOutcome}
    (h : Attempts settings path params attempt left steps result) :
    ∀ x ∈ exchangesIn steps, x.1.AsksAt settings path params := by
  induction h with
  | spent | noToken _ => exact fun _ hx ↦ absurd hx List.not_mem_nil
  | unreachable hasks _ | settled hasks _ | undelayed hasks _ _ | exhausted hasks _ _
    | unwaited hasks _ _ _ => exact List.forall_mem_singleton.mpr hasks
  | repeated hasks _ _ _ _ ih => exact List.forall_mem_cons.mpr ⟨hasks, ih⟩

theorem BatchAttempts.exists_asksAt {urls : RenderUrls} {batches : List (List String)}
    {result : Except Fault RenderUrls}
    (h : BatchAttempts settings path format scale urls batches steps result) :
    ∀ x ∈ exchangesIn steps, ∃ batch ∈ batches,
      x.1.AsksAt settings path (batchParams batch format scale) := by
  induction h with
  | done => exact fun _ hx ↦ absurd hx List.not_mem_nil
  | next hbatch _ _ ih =>
      rw [exchangesIn_append, List.forall_mem_append]
      refine ⟨fun x hx ↦ ⟨_, List.mem_cons_self, hbatch.asksAt x hx⟩, fun x hx ↦ ?_⟩
      obtain ⟨batch, hmem, hasks⟩ := ih x hx
      exact ⟨batch, List.mem_cons_of_mem _ hmem, hasks⟩
  | limited hbatch | failed hbatch =>
      exact fun x hx ↦ ⟨_, List.mem_cons_self, hbatch.asksAt x hx⟩

end Asking

/-- To take a failure of the service for no addresses changes nothing but the result. -/
theorem session_renderUrlsOrNone (settings : Settings) (fileKey : String) (nodeIds : List String)
    (format : String) (scale : Int) (s : Session) :
    ((renderUrlsOrNone settings fileKey nodeIds format scale).outcome s).2 =
      ((renderUrls settings fileKey nodeIds format scale).outcome s).2 := by
  unfold renderUrlsOrNone
  rw [outcome_tryCatch]
  cases (renderUrls settings fileKey nodeIds format scale).outcome s with
  | mk result t =>
      cases result with
      | ok urls => rfl
      | error fault => cases fault <;> rfl

/-- The service is asked for addresses of the nodes that are given, and of no others. -/
theorem exists_asks (settings : Settings) (fileKey : String) (nodeIds : List String)
    (format : String) (scale : Int) (s : Session) :
    ∃ asks, Follows s asks
        ((renderUrlsOrNone settings fileKey nodeIds format scale).outcome s).2 ∧
      ∀ x ∈ asks, ∃ asked, asked ⊆ nodeIds ∧
        x.1.AsksAt settings ("/images/" ++ fileKey) (batchParams asked format scale) := by
  obtain ⟨steps, htakes, hattempts⟩ := exists_batchAttempts settings ("/images/" ++ fileKey) format
    scale [] (batches settings nodeIds) s
  rw [session_renderUrlsOrNone]
  refine ⟨_, htakes.follows, fun x hx ↦ ?_⟩
  obtain ⟨batch, hbatch, hasks⟩ := hattempts.exists_asksAt x hx
  have hlength : 0 < (max 1 settings.imageBatchSize).toNat := by omega
  refine ⟨batch, fun id hid ↦ ?_, hasks⟩
  rw [← (areSlices_slices hlength nodeIds).flatten_eq]
  exact List.mem_flatten.mpr ⟨batch, hbatch, hid⟩

/-! ## Downloading -/

/-- The nodes that have an address. -/
def RenderUrls.addressed (urls : RenderUrls) (nodeIds : List String) : List String :=
  nodeIds.filter fun nodeId ↦ (urls.get nodeId).isGiven

/-- What has come with the replies to the downloads of nodes. -/
def came (nodeIds : List String) (downloads : List Exchange) : List (String × String) :=
  (nodeIds.zip downloads).filterMap fun got ↦ got.2.2.data?.map (got.1, ·)

theorem addressed_cons_of_not {urls : RenderUrls} {nodeId : String}
    (h : (urls.get nodeId).isGiven = false) (rest : List String) :
    urls.addressed (nodeId :: rest) = urls.addressed rest := by
  rw [RenderUrls.addressed, List.filter_cons, h]
  rfl

theorem addressed_cons {urls : RenderUrls} {nodeId : String}
    (h : (urls.get nodeId).isGiven = true) (rest : List String) :
    urls.addressed (nodeId :: rest) = nodeId :: urls.addressed rest := by
  rw [RenderUrls.addressed, List.filter_cons, h]
  rfl

namespace Downloads

variable {settings : Settings} {urls : RenderUrls} {nodeIds : List String} {xs : List Exchange}
  {images : List (String × String)}

theorem requests_eq (h : Downloads settings urls nodeIds xs images) :
    xs.map Prod.fst =
      (urls.addressed nodeIds).map fun nodeId ↦ downloadRequest settings (urls.get nodeId) := by
  induction h with
  | nil => rfl
  | skipped hskipped _ ih => rw [addressed_cons_of_not hskipped, ih]
  | asked hgiven _ _ ih => rw [addressed_cons hgiven, List.map_cons, List.map_cons, ih]

theorem eq_came (h : Downloads settings urls nodeIds xs images) :
    images = came (urls.addressed nodeIds) xs := by
  induction h with
  | nil => rfl
  | skipped hskipped _ ih => rw [addressed_cons_of_not hskipped, ih]
  | asked hgiven reply _ ih =>
      rw [addressed_cons hgiven, ih]
      unfold came
      rw [List.zip_cons_cons, List.filterMap_cons]
      dsimp only
      cases reply.data? <;> rfl

theorem ne_empty (h : Downloads settings urls nodeIds xs images) :
    ∀ image ∈ images, image.2 ≠ "" := by
  intro image himage
  obtain ⟨_, _, _, _, hdelivers⟩ := h.all_came image himage
  obtain ⟨_, _, _, _, hdata⟩ := hdelivers
  exact hdata

end Downloads

/-! ## The effect of an export -/

/-- Under keys that are all different, no node has two renders of a file in a format. -/
theorem RenderCall.nodup_stored {call : RenderCall} {s : Session}
    (h : (s.store.renders.map (·.key)).Nodup) : ((call.stored s).map Prod.fst).Nodup := by
  rw [RenderCall.stored, Store.renders?, List.map_map]
  have hkeys := List.pairwise_map.mp h
  refine List.pairwise_map.mpr ((hkeys.sublist List.filter_sublist).imp_of_mem ?_)
  intro first second hfirst hsecond hne hnode
  have hkey (r : StoredRender) (hr : r ∈ s.store.renders.filter (Store.isAsked call.fileKey
      (Text.sortedDistinct call.nodeIds) call.format call.lastModified)) :
      r.key = ⟨call.fileKey, r.key.nodeId, call.format⟩ := by
    have hasked := (List.mem_filter.mp hr).2
    simp only [Store.isAsked, Bool.and_eq_true, beq_iff_eq] at hasked
    rw [← hasked.1.1.1, ← hasked.1.2]
  have hsame : first.key.nodeId = second.key.nodeId := hnode
  rw [hkey first hfirst, hkey second hsecond, hsame] at hne
  exact hne rfl

theorem RenderCall.nodup_stored_append {call : RenderCall} {s : Session}
    {fetched : List (String × String)} (h : (s.store.renders.map (·.key)).Nodup)
    (hfetched : (fetched.map Prod.fst).Nodup)
    (hdisjoint : ∀ image ∈ fetched, (call.stored s).lookup image.1 = none) :
    ((call.stored s ++ fetched).map Prod.fst).Nodup := by
  rw [List.map_append]
  refine List.nodup_append.mpr ⟨RenderCall.nodup_stored h, hfetched, ?_⟩
  rintro id hid _ hnew rfl
  obtain ⟨image, himage, rfl⟩ := List.mem_map.mp hnew
  obtain ⟨old, hold, heq⟩ := List.mem_map.mp hid
  exact bne_iff_ne.mp (List.lookup_eq_none_iff.mp (hdisjoint image himage) old hold) heq.symm

/-- What an export does, with the addresses that the service gives, the requests for them, the
downloads, and what has come with these. -/
structure Effect (settings : Settings) (call : RenderCall) (before after : Session)
    (images : List (String × String)) (urls : RenderUrls) (asks downloads : List Exchange)
    (fetched : List (String × String)) : Prop where
  exchanges_eq : exchanges before after = asks ++ downloads
  /-- The service is asked for nodes only that are wanted and not in the store. -/
  asksFor : ∀ x ∈ asks, ∃ nodeIds, nodeIds ⊆ call.missing before ∧ x.1.AsksAt settings
    ("/images/" ++ call.fileKey) (batchParams nodeIds call.format call.scale)
  urls_eq : ∃ asked, (renderUrlsOrNone settings call.fileKey (call.missing before) call.format
    call.scale).outcome before = (.ok urls, asked) ∧ exchanges before asked = asks
  /-- Every address is downloaded once, in the order of the nodes. -/
  downloads_eq : downloads.map Prod.fst = (urls.addressed (call.missing before)).map fun nodeId ↦
    downloadRequest settings (urls.get nodeId)
  sorted : (call.missing before).Pairwise (· < ·)
  fetched_eq : fetched = came (urls.addressed (call.missing before)) downloads
  images_eq : images = call.stored before ++ fetched
  disjoint : ∀ image ∈ fetched, (call.stored before).lookup image.1 = none
  nodup : (before.store.renders.map (·.key)).Nodup → (images.map Prod.fst).Nodup
  mem_nodeIds : ∀ image ∈ images, image.1 ∈ call.nodeIds
  ne_empty : (∀ image ∈ call.stored before, image.2 ≠ "") → ∀ image ∈ images, image.2 ≠ ""
  saves : before.store.Saves (fetched.map call.record) after.store
  files_eq : after.files = before.files

/-- Every export that comes to a result has asked for what was missing, downloaded it and saved
what has come, and nothing else. -/
theorem exists_effect_of_run {settings : Settings} {call : RenderCall} {before after : Session}
    {images : List (String × String)} (h : call.run settings before = (.ok images, after)) :
    ∃ urls asks downloads fetched,
      Effect settings call before after images urls asks downloads fetched := by
  obtain ⟨asks, hasks, hmissing⟩ := exists_asks settings call.fileKey (call.missing before)
    call.format call.scale before
  rw [← RenderCall.asking] at hasks
  have hfiles := files_of_exportNodes h
  have hkeys := mem_of_mem_exportNodes h
  have hgoes := call.goes settings before
  rw [h] at hgoes
  cases hgoes with
  | @saved urls asked _ downloads fetched hasking hgot hdownloads hstore =>
      rw [hasking] at hasks
      have hfollows := hasks.trans hgot
      have hnodup := hdownloads.sublist.nodup (call.nodup_missing before)
      -- only what was missing has been downloaded
      have hdisjoint (image : String × String) (himage : image ∈ fetched) :
          (call.stored before).lookup image.1 = none :=
        (RenderCall.mem_missing.mp (hdownloads.sublist.subset (List.mem_map_of_mem himage))).2
      exact ⟨urls, asks, downloads, fetched, {
        exchanges_eq := hfollows.exchanges_eq
        asksFor := hmissing
        urls_eq := ⟨asked, hasking, hasks.exchanges_eq⟩
        downloads_eq := hdownloads.requests_eq
        sorted := (Text.pairwise_sortedDistinct _).filter _
        fetched_eq := hdownloads.eq_came
        images_eq := rfl
        disjoint := hdisjoint
        nodup := fun hbefore ↦ RenderCall.nodup_stored_append hbefore hnodup hdisjoint
        mem_nodeIds := hkeys
        ne_empty := fun hstored ↦ List.forall_mem_append.mpr ⟨hstored, hdownloads.ne_empty⟩
        saves := hstore ▸ Store.saves_saveRenders call hnodup before.store
        files_eq := hfiles }⟩

def threeDrawings : RenderCall := ⟨"Ab1", ["1:3", "1:2", "1:1", "1:2"], "svg", 1, .null⟩

/-- A session in which one of three drawings is stored, one can be downloaded, and one has no
address. -/
def halfStored : Session where
  replies := [
    .response { body := "\x7b\"images\":\x7b\"1:2\":\"https://img/moon\",\"1:3\":null\x7d\x7d" },
    .response { body := "<svg>moon</svg>" }]
  store := { renders := [⟨⟨"Ab1", "1:1", "svg"⟩, .null, "<svg>sun</svg>"⟩] }

theorem exists_effect_of_run_halfStored : ∃ images after urls asks downloads fetched,
    threeDrawings.run withToken halfStored = (.ok images, after) ∧
      Effect withToken threeDrawings halfStored after images urls asks downloads fetched ∧
      images = [("1:1", "<svg>sun</svg>"), ("1:2", "<svg>moon</svg>")] := by
  have hcheck : (threeDrawings.run withToken halfStored).1.toOption =
      some [("1:1", "<svg>sun</svg>"), ("1:2", "<svg>moon</svg>")] := by decide +kernel
  cases hrun : threeDrawings.run withToken halfStored with
  | mk result after =>
      rw [hrun] at hcheck
      cases result with
      | error fault => exact nomatch hcheck
      | ok images =>
          obtain ⟨urls, asks, downloads, fetched, heffect⟩ := exists_effect_of_run hrun
          exact ⟨images, after, urls, asks, downloads, fetched, rfl, heffect,
            Option.some.inj hcheck⟩

end DesignToWeb.Service
