import DesignToWeb.Proofs.Service.Attempts
import DesignToWeb.Proofs.Service.Fetching
import DesignToWeb.Proofs.Service.Slices
import DesignToWeb.Proofs.Service.Store

/-!
# Where renders come from

Whatever an export returns has been downloaded, in the export itself or before.
A download is made of two exchanges: one in which the service gave an address
for the node, and a later one in which something stood at that address.
-/

namespace DesignToWeb.Service

open Service.Action

/-! ## Downloads in a sequence of exchanges -/

/-- Whether a request asks for the addresses of renders of a file in a format and at a scale. -/
def Request.AsksRenders (settings : Settings) (fileKey format : String) (scale : Int)
    (request : Request) : Prop :=
  ∃ nodeIds headers, request =
    askRequest settings ("/images/" ++ fileKey) (some (batchParams nodeIds format scale)) headers

namespace RenderUrls

def Has (urls : RenderUrls) (nodeId : String) (url : Json) : Prop :=
  ∃ entry ∈ urls, entry.1.isStr nodeId = true ∧ entry.2 = url

end RenderUrls

/-- Whether a reply gives an address for the render of a node. -/
def Reply.Offers (reply : Reply) (nodeId : String) (url : Json) : Prop :=
  ∃ response urls, reply = .response response ∧ response.status ≠ 429 ∧
    response.isRefusal = false ∧ answeredUrls response = .ok urls ∧ urls.Has nodeId url

/-- Whether something came with a reply. -/
def Reply.Delivers (reply : Reply) (data : String) : Prop :=
  ∃ response, reply = .response response ∧ response.isRefusal = false ∧ response.body = data ∧
    data ≠ ""

def downloadRequest (settings : Settings) (url : Json) : Request where
  url
  timeout := settings.requestTimeout

/-- Whether a node has been rendered in a file at a scale, and the render downloaded. -/
def Rendered (settings : Settings) (fileKey format : String) (scale : Int) (xs : List Exchange)
    (image : String × String) : Prop :=
  ∃ asked got : Exchange, ∃ url, [asked, got].Sublist xs ∧
    asked.1.AsksRenders settings fileKey format scale ∧ asked.2.Offers image.1 url ∧
    got.1 = downloadRequest settings url ∧ got.2.Delivers image.2

theorem Rendered.mono {settings : Settings} {fileKey format : String} {scale : Int}
    {xs ys : List Exchange} {image : String × String} (hxs : xs.Sublist ys)
    (h : Rendered settings fileKey format scale xs image) :
    Rendered settings fileKey format scale ys image := by
  obtain ⟨asked, got, url, hsub, h⟩ := h
  exact ⟨asked, got, url, hsub.trans hxs, h⟩

theorem not_rendered_of_isEmpty {settings : Settings} {fileKey format : String} {scale : Int}
    {xs : List Exchange} {image : String × String} (hxs : xs.isEmpty = true) :
    ¬ Rendered settings fileKey format scale xs image := by
  rintro ⟨asked, got, url, hsub, _⟩
  rw [List.isEmpty_iff.mp hxs] at hsub
  exact nomatch hsub

/-! ## Addresses -/

namespace RenderUrls

variable {urls more : RenderUrls} {nodeId : String} {url : Json}

/-- Only a text is like a text. -/
theorem isStr_eq_of_alike {a b : Json} (h : a.alike b = true) (nodeId : String) :
    a.isStr nodeId = b.isStr nodeId := by
  cases a with
  | str s =>
      cases b with
      | str t =>
          rw [Json.alike] at h
          rw [eq_of_beq h]
      | null | nan | arr _ | obj _ => simp [Json.alike, Json.numeric?] at h
      | bool _ | int _ | float _ => simp [Json.alike, Json.numeric?] at h
  | null | bool _ | int _ | float _ | nan | arr _ | obj _ =>
      cases b with
      | str t => simp [Json.alike, Json.numeric?] at h
      | null | bool _ | int _ | float _ | nan | arr _ | obj _ => rfl

theorem has_of_get (h : (urls.get nodeId).isGiven = true) : urls.Has nodeId (urls.get nodeId) := by
  unfold get at h ⊢
  cases hfind : urls.find? fun entry ↦ entry.1.isStr nodeId with
  | none =>
      rw [hfind] at h
      exact Bool.noConfusion h
  | some entry =>
      have hkey : entry.1.isStr nodeId = true := by simpa using List.find?_some hfind
      exact ⟨entry, List.mem_of_find?_eq_some hfind, hkey, rfl⟩

theorem has_insert {key given : Json} (h : (urls.insert key given).Has nodeId url) :
    urls.Has nodeId url ∨ key.isStr nodeId = true ∧ given = url := by
  induction urls with
  | nil =>
      obtain ⟨entry, hentry, hkey, hurl⟩ := h
      rw [List.mem_singleton.mp hentry] at hkey hurl
      exact Or.inr ⟨hkey, hurl⟩
  | cons first rest ih =>
      obtain ⟨k, u⟩ := first
      obtain ⟨entry, hentry, hkey, hurl⟩ := h
      unfold insert at hentry
      split at hentry
      · next halike =>
        -- the first key stays where it is and gets the new address
        rcases List.mem_cons.mp hentry with rfl | hentry
        · exact Or.inr ⟨(isStr_eq_of_alike halike nodeId).symm.trans hkey, hurl⟩
        · exact Or.inl ⟨entry, List.mem_cons_of_mem _ hentry, hkey, hurl⟩
      · rcases List.mem_cons.mp hentry with rfl | hentry
        · exact Or.inl ⟨_, List.mem_cons_self, hkey, hurl⟩
        · rcases ih ⟨entry, hentry, hkey, hurl⟩ with ⟨other, hother, h⟩ | h
          · exact Or.inl ⟨other, List.mem_cons_of_mem _ hother, h⟩
          · exact Or.inr h

theorem has_merge (h : (urls.merge more).Has nodeId url) :
    urls.Has nodeId url ∨ more.Has nodeId url := by
  induction more generalizing urls with
  | nil => exact Or.inl h
  | cons entry rest ih =>
      rcases @ih (urls.insert entry.1 entry.2) h with h | ⟨other, hother, h⟩
      · rcases has_insert h with h | h
        · exact Or.inl h
        · exact Or.inr ⟨entry, List.mem_cons_self, h⟩
      · exact Or.inr ⟨other, List.mem_cons_of_mem _ hother, h⟩

end RenderUrls

/-! ## Batches -/

section Batches

variable (settings : Settings) (fileKey format : String) (scale : Int)

def Offered (xs : List Exchange) (nodeId : String) (url : Json) : Prop :=
  ∃ x ∈ xs, x.1.AsksRenders settings fileKey format scale ∧ x.2.Offers nodeId url

variable {settings fileKey format scale}

theorem Offered.mono {xs ys : List Exchange} {nodeId : String} {url : Json} (hxs : xs ⊆ ys)
    (h : Offered settings fileKey format scale xs nodeId url) :
    Offered settings fileKey format scale ys nodeId url := by
  obtain ⟨x, hx, h⟩ := h
  exact ⟨x, hxs hx, h⟩

/-- Whether the addresses in the outcome of a batch, if there are any, have been offered. -/
def BatchOffered (settings : Settings) (fileKey format : String) (scale : Int)
    (xs : List Exchange) (outcome : BatchOutcome) : Prop :=
  ∀ urls, outcome = .answered urls → ∀ nodeId url, urls.Has nodeId url →
    Offered settings fileKey format scale xs nodeId url

theorem Request.AsksAt.asksRenders {request : Request} {nodeIds : List String}
    (h : request.AsksAt settings ("/images/" ++ fileKey) (batchParams nodeIds format scale)) :
    request.AsksRenders settings fileKey format scale := by
  obtain ⟨headers, _, rfl⟩ := h
  exact ⟨nodeIds, headers, rfl⟩

theorem Attempts.batchOffered {nodeIds : List String} {attempt left : Nat} {steps : List Step}
    {outcome : BatchOutcome}
    (h : Attempts settings ("/images/" ++ fileKey) (batchParams nodeIds format scale) attempt left
      steps (.ok outcome)) :
    BatchOffered settings fileKey format scale (exchangesIn steps) outcome := by
  generalize hresult : (Except.ok outcome : Except Fault BatchOutcome) = result at h
  induction h with
  | noToken _ | unreachable _ _ | undelayed _ _ _ | unwaited _ _ _ _ => exact nomatch hresult
  | spent | exhausted _ _ _ =>
      rw [Except.ok.inj hresult]
      exact fun urls houtcome ↦ nomatch houtcome
  | @settled _ _ request r hasks hstatus =>
      obtain ⟨hrefusal, urls, hurls, rfl⟩ := answeredUrls_of_settled hresult.symm
      intro own houtcome nodeId url hurl
      rw [← BatchOutcome.answered.inj houtcome] at hurl
      exact ⟨_, List.mem_singleton_self _, hasks.asksRenders, r, urls, rfl, hstatus, hrefusal, hurls,
        hurl⟩
  | repeated _ _ _ _ _ ih =>
      intro urls houtcome nodeId url hurl
      exact (ih hresult urls houtcome nodeId url hurl).mono (List.subset_cons_self _ _)

theorem BatchAttempts.offered {urls all : RenderUrls} {batches : List (List String)}
    {steps : List Step}
    (h : BatchAttempts settings ("/images/" ++ fileKey) format scale urls batches steps (.ok all))
    {nodeId : String} {url : Json} (hurl : all.Has nodeId url) :
    urls.Has nodeId url ∨ Offered settings fileKey format scale (exchangesIn steps) nodeId url := by
  generalize hresult : (Except.ok all : Except Fault RenderUrls) = result at h
  induction h with
  | failed _ => exact nomatch hresult
  | done | limited _ =>
      obtain rfl := Except.ok.inj hresult
      exact Or.inl hurl
  | @next urls _ _ steps later outcome _ hbatch _ _ ih =>
      rw [exchangesIn_append]
      rcases ih hresult with hadded | hoffered
      · cases outcome with
        | answered more =>
            refine (RenderUrls.has_merge hadded).imp_right fun hmore ↦ ?_
            exact (hbatch.batchOffered more rfl nodeId url hmore).mono (List.subset_append_left _ _)
        | rateLimited | notAsked => exact Or.inl hadded
      · exact Or.inr (hoffered.mono (List.subset_append_right _ _))

theorem gives_askBatches (urls : RenderUrls) (batches : List (List String)) :
    Gives (askBatches settings ("/images/" ++ fileKey) format scale urls batches) fun xs result ↦
      ∀ nodeId url, result.Has nodeId url →
        urls.Has nodeId url ∨ Offered settings fileKey format scale xs nodeId url := by
  intro s
  obtain ⟨steps, htakes, hattempts⟩ := exists_batchAttempts settings ("/images/" ++ fileKey) format
    scale urls batches s
  refine ⟨_, htakes.follows, fun all hall nodeId url hurl ↦ ?_⟩
  rw [hall] at hattempts
  exact hattempts.offered hurl

variable (settings fileKey format scale) in
theorem gives_renderUrlsOrNone (nodeIds : List String) :
    Gives (renderUrlsOrNone settings fileKey nodeIds format scale) fun xs urls ↦
      ∀ nodeId url, urls.Has nodeId url →
        Offered settings fileKey format scale xs nodeId url := by
  have hnone (nodeId : String) (url : Json) : ¬ RenderUrls.Has [] nodeId url :=
    fun ⟨entry, hentry, _⟩ ↦ absurd hentry List.not_mem_nil
  refine Gives.tryCatch ?_ fun fault ↦ ?_
  · refine (gives_askBatches [] _).mono fun xs urls h nodeId url hurl ↦ ?_
    exact (h nodeId url hurl).resolve_left (hnone nodeId url)
  · split
    · refine (Gives.pure []).mono fun ys urls h xs nodeId url hurl ↦ ?_
      rw [h.2] at hurl
      exact absurd hurl (hnone nodeId url)
    · exact .throw _ _

end Batches

/-! ## Exports -/

/-- What came with the reply to a download. -/
def Reply.data? : Reply → Option String
  | .failure _ => none
  | .response r => if r.isRefusal || r.body = "" then none else some r.body

theorem Reply.data?_eq_some {reply : Reply} {data : String} :
    reply.data? = some data ↔ reply.Delivers data := by
  constructor
  · intro h
    cases reply with
    | failure reason => exact nomatch h
    | response r =>
        obtain ⟨hgood, hbody⟩ := Option.ite_none_left_eq_some.mp h
        simp only [Bool.or_eq_true, decide_eq_true_eq, not_or] at hgood
        obtain rfl := Option.some.inj hbody
        exact ⟨r, rfl, Bool.eq_false_iff.mpr hgood.1, rfl, hgood.2⟩
  · rintro ⟨r, rfl, hrefusal, rfl, hdata⟩
    simp [Reply.data?, hrefusal, hdata]

/-- The downloads for nodes in their order, with the images that came.  A node without an address
is passed over. -/
inductive Downloads (settings : Settings) (urls : RenderUrls) :
    List String → List Exchange → List (String × String) → Prop
  | nil : Downloads settings urls [] [] []
  | skipped {nodeId : String} {nodeIds : List String} {xs : List Exchange}
      {images : List (String × String)} (h : (urls.get nodeId).isGiven = false)
      (hrest : Downloads settings urls nodeIds xs images) :
      Downloads settings urls (nodeId :: nodeIds) xs images
  | asked {nodeId : String} {nodeIds : List String} {xs : List Exchange}
      {images : List (String × String)} (h : (urls.get nodeId).isGiven = true) (reply : Reply)
      (hrest : Downloads settings urls nodeIds xs images) :
      Downloads settings urls (nodeId :: nodeIds)
        ((downloadRequest settings (urls.get nodeId), reply) :: xs)
        ((reply.data?.map (nodeId, ·)).toList ++ images)

theorem Downloads.sublist {settings : Settings} {urls : RenderUrls} {nodeIds : List String}
    {xs : List Exchange} {images : List (String × String)}
    (h : Downloads settings urls nodeIds xs images) : (images.map Prod.fst).Sublist nodeIds := by
  induction h with
  | nil => exact .slnil
  | skipped _ _ ih => exact ih.cons _
  | asked _ reply _ ih =>
      cases reply.data? with
      | none => exact ih.cons _
      | some data => exact ih.cons_cons _

theorem ends_download (settings : Settings) (url : Json) :
    Ends (download settings url) fun xs result ↦
      ∃ reply, xs = [(downloadRequest settings url, reply)] ∧ result = .ok reply.data? := by
  unfold download
  refine (Ends.send _).bind ?_ ?_
  · rintro _ reply ⟨_, rfl, hreply⟩
    obtain rfl := Except.ok.inj hreply
    cases reply with
    | failure reason => exact .pure ⟨_, rfl, rfl⟩
    | response response => exact .pure ⟨_, rfl, rfl⟩
  · rintro _ fault ⟨_, _, hfault⟩
    cases hfault

theorem ends_downloadAll (settings : Settings) (urls : RenderUrls) (nodeIds : List String) :
    Ends (downloadAll settings urls nodeIds) fun xs result ↦
      ∃ images, result = .ok images ∧ Downloads settings urls nodeIds xs images := by
  induction nodeIds with
  | nil => exact .pure ⟨[], rfl, .nil⟩
  | cons nodeId rest ih =>
      -- the other nodes are downloaded alike, whatever has come for the first one
      have hrest (data? : Option String) :
          Ends (do return (data?.map (nodeId, ·)).toList ++ (← downloadAll settings urls rest))
            fun xs result ↦ ∃ images, result = .ok ((data?.map (nodeId, ·)).toList ++ images) ∧
              Downloads settings urls rest xs images := by
        refine ih.bind ?_ ?_
        · rintro xs images ⟨_, himages, hdownloads⟩
          obtain rfl := Except.ok.inj himages
          refine .pure ⟨images, rfl, ?_⟩
          rwa [List.append_nil]
        · rintro xs fault ⟨_, hfault, _⟩
          cases hfault
      unfold downloadAll
      dsimp only
      by_cases hgiven : (urls.get nodeId).isGiven = true
      · rw [if_pos hgiven]
        refine (ends_download settings _).bind ?_ ?_
        · rintro _ data? ⟨reply, rfl, hdata⟩
          refine (hrest data?).mono ?_
          rintro xs _ ⟨images, rfl, hdownloads⟩
          rw [Except.ok.inj hdata]
          exact ⟨_, rfl, .asked hgiven reply hdownloads⟩
        · rintro _ fault ⟨_, _, hfault⟩
          cases hfault
      · rw [if_neg hgiven]
        have hnone : Ends (pure none : Action (Option String)) fun xs result ↦
            xs = [] ∧ result = .ok none := .pure ⟨rfl, rfl⟩
        refine hnone.bind ?_ ?_
        · rintro _ data? ⟨rfl, hdata⟩
          refine (hrest data?).mono ?_
          rintro xs _ ⟨images, rfl, hdownloads⟩
          rw [Except.ok.inj hdata]
          exact ⟨_, rfl, .skipped (Bool.eq_false_iff.mpr hgiven) hdownloads⟩
        · rintro _ fault ⟨_, hfault⟩
          cases hfault

/-- Whether an image came with one of the exchanges from the address of its node. -/
def Came (settings : Settings) (urls : RenderUrls) (xs : List Exchange)
    (image : String × String) : Prop :=
  (urls.get image.1).isGiven = true ∧
    ∃ y ∈ xs, y.1 = downloadRequest settings (urls.get image.1) ∧ y.2.Delivers image.2

theorem Came.mono {settings : Settings} {urls : RenderUrls} {xs ys : List Exchange}
    {image : String × String} (hxs : xs ⊆ ys) (h : Came settings urls xs image) :
    Came settings urls ys image := by
  obtain ⟨hgiven, y, hy, h⟩ := h
  exact ⟨hgiven, y, hxs hy, h⟩

theorem Downloads.all_came {settings : Settings} {urls : RenderUrls} {nodeIds : List String}
    {xs : List Exchange} {images : List (String × String)}
    (h : Downloads settings urls nodeIds xs images) :
    ∀ image ∈ images, Came settings urls xs image := by
  induction h with
  | nil => exact fun image himage ↦ absurd himage List.not_mem_nil
  | skipped _ _ ih => exact ih
  | asked hgiven reply _ ih =>
      intro image himage
      rw [List.mem_append, Option.mem_toList, Option.map_eq_some_iff] at himage
      rcases himage with ⟨data, hdata, rfl⟩ | himage
      · exact ⟨hgiven, _, List.mem_cons_self, rfl, Reply.data?_eq_some.mp hdata⟩
      · exact (ih image himage).mono (List.subset_cons_self _ _)

structure RenderCall where
  fileKey : String
  nodeIds : List String
  format : String
  scale : Int
  lastModified : Json

namespace RenderCall

def run (settings : Settings) (call : RenderCall) (s : Session) :
    Except Fault (List (String × String)) × Session :=
  (exportNodes settings call.fileKey call.nodeIds call.format call.scale
    call.lastModified).outcome s

def record (call : RenderCall) (image : String × String) : StoredRender :=
  ⟨⟨call.fileKey, image.1, call.format⟩, call.lastModified, image.2⟩

def stored (call : RenderCall) (s : Session) : List (String × String) :=
  s.store.renders? call.fileKey (Text.sortedDistinct call.nodeIds) call.format call.lastModified

end RenderCall

theorem apart_store : Apart Session.store where
  asked _ _ _ := rfl
  waited _ _ := rfl

theorem exists_downloads (settings : Settings) (urls : RenderUrls) (nodeIds : List String)
    (s : Session) :
    ∃ xs images t, (downloadAll settings urls nodeIds).outcome s = (.ok images, t) ∧
      Follows s xs t ∧ Downloads settings urls nodeIds xs images ∧ t.store = s.store := by
  obtain ⟨xs, hfollows, images, himages, hdownloads⟩ := ends_downloadAll settings urls nodeIds s
  exact ⟨xs, images, _, Prod.ext himages rfl, hfollows, hdownloads,
    apart_store.downloadAll settings urls nodeIds s⟩

namespace RenderCall

def missing (call : RenderCall) (s : Session) : List String :=
  (Text.sortedDistinct call.nodeIds).filter fun nodeId ↦ ((call.stored s).lookup nodeId).isNone

theorem mem_missing {call : RenderCall} {s : Session} {nodeId : String} :
    nodeId ∈ call.missing s ↔
      nodeId ∈ call.nodeIds ∧ (call.stored s).lookup nodeId = none := by
  rw [missing, List.mem_filter, Text.mem_sortedDistinct, Option.isNone_iff_eq_none]

theorem nodup_missing (call : RenderCall) (s : Session) : (call.missing s).Nodup :=
  (Text.nodup_sortedDistinct _).filter _

theorem run_of_missing_eq_nil {settings : Settings} {call : RenderCall} {s : Session}
    (h : call.missing s = []) : call.run settings s = (.ok (call.stored s), s) := by
  rw [RenderCall.run, exportNodes, outcome_bind, outcome_store]
  change Action.outcome (if (call.missing s).isEmpty then pure (call.stored s) else _) s = _
  rw [h]
  rfl

theorem outcome_renderUrlsOrNone_nil (settings : Settings) (fileKey format : String) (scale : Int)
    (s : Session) :
    (renderUrlsOrNone settings fileKey [] format scale).outcome s = (.ok [], s) := by
  unfold renderUrlsOrNone renderUrls batches
  rw [slices_nil, outcome_tryCatch]
  rfl

/-- An export asks for the addresses of what is missing, downloads it and saves what has come, even
where nothing is missing. -/
theorem run_eq (settings : Settings) (call : RenderCall) (s : Session) :
    call.run settings s = Action.outcome (do
      let urls ← renderUrlsOrNone settings call.fileKey (call.missing s) call.format call.scale
      let fetched ← downloadAll settings urls (call.missing s)
      Action.modifyStore (·.saveRenders call.fileKey fetched call.format call.lastModified)
      return call.stored s ++ fetched) s := by
  by_cases hmissing : call.missing s = []
  · rw [run_of_missing_eq_nil hmissing, hmissing, outcome_bind, outcome_renderUrlsOrNone_nil]
    change _ = (Except.ok (call.stored s ++ []), s)
    rw [List.append_nil]
  · rw [RenderCall.run, exportNodes, outcome_bind, outcome_store]
    change Action.outcome (if (call.missing s).isEmpty then pure (call.stored s) else _) s = _
    rw [if_neg (mt List.isEmpty_iff.mp hmissing)]
    rfl

/-- How it ends to ask for the addresses of what is missing. -/
def asking (settings : Settings) (call : RenderCall) (s : Session) :
    Except Fault RenderUrls × Session :=
  (renderUrlsOrNone settings call.fileKey (call.missing s) call.format call.scale).outcome s

/-- How an export can go: it fails while it asks for addresses, or what is missing is downloaded and
saved. -/
inductive Goes (settings : Settings) (call : RenderCall) (s : Session) :
    Except Fault (List (String × String)) → Session → Prop
  | failed {fault : Fault} {after : Session}
      (hasking : call.asking settings s = (.error fault, after))
      (hstore : after.store = s.store) : Goes settings call s (.error fault) after
  | saved {urls : RenderUrls} {asked after : Session} {xs : List Exchange}
      {fetched : List (String × String)} (hasking : call.asking settings s = (.ok urls, asked))
      (hgot : Follows asked xs after)
      (hdownloads : Downloads settings urls (call.missing s) xs fetched)
      (hstore : after.store =
        s.store.saveRenders call.fileKey fetched call.format call.lastModified) :
      Goes settings call s (.ok (call.stored s ++ fetched)) after

theorem goes (settings : Settings) (call : RenderCall) (s : Session) :
    call.Goes settings s (call.run settings s).1 (call.run settings s).2 := by
  have hstore := apart_store.renderUrlsOrNone settings call.fileKey (call.missing s) call.format
    call.scale s
  rw [run_eq, outcome_bind]
  cases hasking : (renderUrlsOrNone settings call.fileKey (call.missing s) call.format
    call.scale).outcome s with
  | mk answer asked =>
      rw [hasking] at hstore
      cases answer with
      | error fault => exact .failed hasking hstore
      | ok urls =>
          obtain ⟨xs, fetched, t, hrun, hgot, hdownloads, hkept⟩ :=
            exists_downloads settings urls (call.missing s) asked
          dsimp only
          rw [outcome_bind, hrun]
          refine .saved hasking ?_ hdownloads ?_
          · have hfollows := hgot.trans (.of_same (t := { t with
              store := t.store.saveRenders call.fileKey fetched call.format call.lastModified })
              rfl rfl)
            rwa [List.append_nil] at hfollows
          · exact congrArg (·.saveRenders call.fileKey fetched call.format call.lastModified)
              (hkept.trans hstore)

end RenderCall

theorem mem_of_mem_renders {store : Store} {fileKey format : String} {nodeIds : List String}
    {lastModified : Json} {image : String × String}
    (h : image ∈ store.renders? fileKey nodeIds format lastModified) : image.1 ∈ nodeIds := by
  unfold Store.renders? at h
  obtain ⟨render, hrender, rfl⟩ := List.mem_map.mp h
  have hasked := (List.mem_filter.mp hrender).2
  simp only [Store.isAsked, Bool.and_eq_true] at hasked
  exact List.contains_iff_mem.mp hasked.1.1.2

theorem RenderCall.mem_of_mem_stored {call : RenderCall} {s : Session} {image : String × String}
    (h : image ∈ call.stored s) : image.1 ∈ call.nodeIds :=
  Text.mem_sortedDistinct.mp (mem_of_mem_renders h)

theorem mem_of_mem_exportNodes {settings : Settings} {fileKey format : String}
    {nodeIds : List String} {scale : Int} {lastModified : Json} {s t : Session}
    {images : List (String × String)}
    (h : (exportNodes settings fileKey nodeIds format scale lastModified).outcome s =
      (.ok images, t)) :
    ∀ image ∈ images, image.1 ∈ nodeIds := by
  have hgoes := RenderCall.goes settings ⟨fileKey, nodeIds, format, scale, lastModified⟩ s
  rw [RenderCall.run, h] at hgoes
  cases hgoes with
  | saved _ _ hdownloads _ =>
      intro image himage
      rcases List.mem_append.mp himage with himage | himage
      · exact RenderCall.mem_of_mem_stored himage
      · have hmissing := hdownloads.sublist.subset (List.mem_map_of_mem himage)
        exact (RenderCall.mem_missing.mp hmissing).1

/-- How a call can go, with the exchanges that it takes. -/
inductive RenderStep (settings : Settings) (call : RenderCall) (before after : Session)
    (xs : List Exchange) : Except Fault (List (String × String)) → Prop where
  /-- What the store does not have was downloaded and is stored now. -/
  | exported {fetched : List (String × String)}
      (hrendered : ∀ image ∈ fetched,
        Rendered settings call.fileKey call.format call.scale xs image)
      (hstore : after.store =
        before.store.saveRenders call.fileKey fetched call.format call.lastModified) :
      RenderStep settings call before after xs (.ok (call.stored before ++ fetched))
  | failed {fault : Fault} (hstore : after.store = before.store) :
      RenderStep settings call before after xs (.error fault)

theorem rendered_of_came {settings : Settings} {fileKey format : String} {scale : Int}
    {urls : RenderUrls} {xs ys : List Exchange} {image : String × String}
    (hoffered : ∀ nodeId url, urls.Has nodeId url →
      Offered settings fileKey format scale xs nodeId url)
    (hcame : Came settings urls ys image) :
    Rendered settings fileKey format scale (xs ++ ys) image := by
  obtain ⟨hgiven, got, hgot, hrequest, hdelivers⟩ := hcame
  obtain ⟨asked, hasked, hasks, hoffers⟩ := hoffered _ _ (RenderUrls.has_of_get hgiven)
  have hsub : ([asked] ++ [got]).Sublist (xs ++ ys) :=
    (List.singleton_sublist.mpr hasked).append (List.singleton_sublist.mpr hgot)
  exact ⟨asked, got, _, hsub, hasks, hoffers, hrequest, hdelivers⟩

theorem renderStep_run (settings : Settings) (call : RenderCall) (s : Session) :
    ∃ xs, Follows s xs (call.run settings s).2 ∧
      RenderStep settings call s (call.run settings s).2 xs (call.run settings s).1 := by
  obtain ⟨xs, hasked, hoffered⟩ := gives_renderUrlsOrNone settings call.fileKey call.format
    call.scale (call.missing s) s
  rw [← RenderCall.asking] at hasked hoffered
  have hgoes := call.goes settings s
  generalize call.run settings s = ended at hgoes ⊢
  obtain ⟨result, t⟩ := ended
  cases hgoes with
  | failed hasking hstore =>
      rw [hasking] at hasked
      exact ⟨xs, hasked, .failed hstore⟩
  | saved hasking hgot hdownloads hstore =>
      rw [hasking] at hasked hoffered
      refine ⟨_, hasked.trans hgot, .exported (fun image himage ↦ ?_) hstore⟩
      exact rendered_of_came (hoffered _ rfl) (hdownloads.all_came image himage)

end DesignToWeb.Service
