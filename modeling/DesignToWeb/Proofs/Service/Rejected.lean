import DesignToWeb.Proofs.Design.Faults
import DesignToWeb.Proofs.Service.Conversion
import DesignToWeb.Proofs.Service.Documents
import DesignToWeb.Proofs.Service.Exporting

/-!
# Documents that are refused

A document without pages ends its conversion before anything is asked for or written
beyond it.  The caller is to blame for it.  But what comes instead of a document need
not be an object, and then the conversion fails where the store takes it, before it can
be refused.
-/

namespace DesignToWeb.Service

open Service.Action

variable {settings : Settings} {fileKey : String}

/-! ## Requests for a file in full -/

/-- Whether a request shows the token and asks for no part of a file. -/
def Request.isWhole (request : Request) : Bool :=
  request.headers.isSome && request.params.isNone

/-- What becomes of an answer that is to be a document: only an object can be saved. -/
def savedAnswer (answer : Except Fault Json) : Except Fault Json := do
  let document ← answer
  let _ ← field document "lastModified"
  return document

/-- Whether these are the probes of a file, of which there is one at most. -/
def AreProbes (settings : Settings) (fileKey : String) (xs : List Exchange) : Prop :=
  xs = [] ∨ ∃ headers reply, xs = [(probeRequest settings fileKey headers, reply)]

theorem ends_cachedDocument? (settings : Settings) (fileKey : String) :
    Ends (cachedDocument? settings fileKey) fun xs _ ↦ AreProbes settings fileKey xs := by
  intro s
  have hrun := cacheRun settings fileKey s
  generalize (cachedDocument? settings fileKey).outcome s = ended at hrun ⊢
  obtain ⟨result, t⟩ := ended
  cases hrun with
  | notStored _ | empty _ _ | noToken _ => exact ⟨[], .refl _, Or.inl rfl⟩
  | unanswered _ _ | probed _ _ _ => exact ⟨_, .sent s _, Or.inr ⟨_, _, rfl⟩⟩

/-- How it ends to get a document: without a request for it in full, or with one as the last of
them. -/
inductive GettingEnds (settings : Settings) (fileKey : String) :
    List Exchange → Except Fault Json → Prop
  | unfetched {xs : List Exchange} {result : Except Fault Json}
      (hxs : AreProbes settings fileKey xs) : GettingEnds settings fileKey xs result
  | fetched {probes : List Exchange} {headers : List (String × String)} {reply : Reply}
      (hprobes : AreProbes settings fileKey probes) :
      GettingEnds settings fileKey (probes ++ [(fullRequest settings fileKey headers, reply)])
        (savedAnswer reply.answer)

theorem ends_fetchDocument {probes : List Exchange} (hprobes : AreProbes settings fileKey probes) :
    Ends (fetchDocument settings fileKey) fun xs result ↦
      GettingEnds settings fileKey (probes ++ xs) result := by
  intro s
  have hrun := fetchRun settings fileKey s
  generalize (fetchDocument settings fileKey).outcome s = ended at hrun ⊢
  obtain ⟨result, t⟩ := ended
  dsimp only at hrun ⊢
  have hfetched {headers : List (String × String)} {result : Except Fault Json}
      (hresult : savedAnswer s.nextReply.answer = result) : GettingEnds settings fileKey
        (probes ++ [(fullRequest settings fileKey headers, s.nextReply)]) result :=
    hresult ▸ .fetched hprobes
  cases hrun with
  | noToken _ =>
      refine ⟨[], .refl _, ?_⟩
      rw [List.append_nil]
      exact .unfetched hprobes
  | unanswered _ hanswer => exact ⟨_, .sent s _, hfetched (by rw [hanswer]; rfl)⟩
  | noObject _ hanswer hobject =>
      refine ⟨_, .sent s _, hfetched ?_⟩
      rw [hanswer]
      change (field _ "lastModified" >>= fun _ ↦ .ok _) = _
      rw [field, hobject]
      rfl
  | @saved _ document _ hanswer hobject =>
      refine ⟨_, (Follows.sent s _).trans (.of_same rfl rfl), ?_⟩
      rw [List.append_nil]
      refine hfetched ?_
      rw [hanswer]
      change (field document "lastModified" >>= fun _ ↦ .ok document) = _
      rw [field_eq_ok.mpr ⟨hobject, rfl⟩]
      rfl

theorem ends_getDocument (settings : Settings) (fileKey : String) (useCache : Bool) :
    Ends (getDocument settings fileKey useCache) (GettingEnds settings fileKey) := by
  intro s
  rw [outcome_getDocument]
  have hcached : Ends (if useCache then cachedDocument? settings fileKey else pure none)
      fun xs _ ↦ AreProbes settings fileKey xs := by
    cases useCache with
    | false => exact .pure (Or.inl rfl)
    | true => exact ends_cachedDocument? settings fileKey
  obtain ⟨probes, hfollows, hprobes⟩ := hcached s
  generalize Action.outcome _ s = cached at hfollows hprobes ⊢
  obtain ⟨fault | _ | document, t⟩ := cached
  · exact ⟨probes, hfollows, .unfetched hprobes⟩
  · obtain ⟨xs, hrest, hended⟩ := ends_fetchDocument hprobes t
    exact ⟨probes ++ xs, hfollows.trans hrest, hended⟩
  · exact ⟨probes, hfollows, .unfetched hprobes⟩

/-! ## Other requests -/

/-- Whether a file is asked for in full by none of these. -/
def AreParts (xs : List Exchange) : Prop := ∀ x ∈ xs, x.1.isWhole = false

theorem AreParts.append {xs ys : List Exchange} (hxs : AreParts xs) (hys : AreParts ys) :
    AreParts (xs ++ ys) := List.forall_mem_append.mpr ⟨hxs, hys⟩

theorem AreProbes.areParts {xs : List Exchange} (h : AreProbes settings fileKey xs) :
    AreParts xs := by
  rcases h with rfl | ⟨headers, reply, rfl⟩
  · exact fun _ hx ↦ absurd hx List.not_mem_nil
  · exact List.forall_mem_singleton.mpr rfl

theorem areParts_of_asksRenders {format : String} {scale : Int} {xs : List Exchange}
    (h : ∀ x ∈ xs, x.1.AsksRenders settings fileKey format scale) : AreParts xs := by
  intro x hx
  obtain ⟨nodeIds, headers, hrequest⟩ := h x hx
  rw [hrequest]
  rfl

theorem Downloads.areParts {urls : RenderUrls} {nodeIds : List String} {xs : List Exchange}
    {images : List (String × String)} (h : Downloads settings urls nodeIds xs images) :
    AreParts xs := by
  induction h with
  | nil => exact fun _ hx ↦ absurd hx List.not_mem_nil
  | skipped _ _ ih => exact ih
  | asked _ _ _ ih => exact List.forall_mem_cons.mpr ⟨rfl, ih⟩

def AsksParts {α : Type} (a : Action α) : Prop := Ends a fun xs _ ↦ AreParts xs

namespace AsksParts

variable {α β : Type}

theorem of_same {a : Action α} (h : ∀ s, (a.outcome s).2.requests = s.requests ∧
    (a.outcome s).2.replies = s.replies) : AsksParts a :=
  fun s ↦ ⟨[], .of_same (h s).1 (h s).2, fun _ hx ↦ absurd hx List.not_mem_nil⟩

theorem pure (x : α) : AsksParts (pure x : Action α) := of_same fun _ ↦ ⟨rfl, rfl⟩

theorem ofExcept (x : Except Fault α) : AsksParts (Action.ofExcept x) := of_same fun _ ↦ ⟨rfl, rfl⟩

theorem bind {a : Action α} {f : α → Action β} (ha : AsksParts a) (hf : ∀ x, AsksParts (f x)) :
    AsksParts (a >>= f) := by
  refine Ends.bind ha (fun xs x hxs ↦ (hf x).mono fun ys _ hys ↦ hxs.append hys) ?_
  exact fun _ _ hxs ↦ hxs

theorem exportNodes (settings : Settings) (fileKey : String) (nodeIds : List String)
    (format : String) (scale : Int) (lastModified : Json) :
    AsksParts (Service.exportNodes settings fileKey nodeIds format scale lastModified) := by
  intro s
  obtain ⟨xs, hfollows, hends⟩ :=
    exportEnds_run settings ⟨fileKey, nodeIds, format, scale, lastModified⟩ s
  refine ⟨xs, hfollows, ?_⟩
  generalize (RenderCall.run settings _ s).1 = result at hends
  cases hends with
  | stored hxs _ _ =>
      rw [hxs]
      exact fun _ hx ↦ absurd hx List.not_mem_nil
  | downloaded hxs hasks hdownloads _ =>
      rw [hxs]
      exact (areParts_of_asksRenders fun x hx ↦ (hasks x hx).1).append hdownloads.areParts
  | givenUp h _ | broken h _ _ => exact areParts_of_asksRenders h.asks

theorem of_writing {a : Action α} (h : ∀ s, ∃ machine files fault? t value,
    WritingEnds machine files s fault? t ∧ a.outcome s = (orFault value fault?, t)) :
    AsksParts a := by
  refine of_same fun s ↦ ?_
  obtain ⟨machine, files, fault?, t, value, hends, hrun⟩ := h s
  obtain ⟨written, _, rfl⟩ := hends.exists_subset
  rw [hrun]
  exact ⟨rfl, rfl⟩

theorem exportFallbacks (settings : Settings) (fileKey : String) (nodeIds : List String)
    (dir : Path) (lastModified : Json) :
    AsksParts (Service.exportFallbacks settings fileKey nodeIds dir lastModified) := by
  refine (exportNodes _ _ _ _ _ _).bind fun drawings ↦ of_writing fun s ↦ ?_
  obtain ⟨fault?, t, hends, hrun⟩ := exists_writeRenders settings.machine dir drawings s
  exact ⟨_, _, fault?, t, _, hends, hrun⟩

theorem fillMissing (machine : Machine) (dir : Path) (paths : AssetPaths) (ids : List String) :
    AsksParts (Service.fillMissing dir paths ids machine) := by
  refine of_writing fun s ↦ ?_
  obtain ⟨_, files, _, fault?, t, hends, hrun⟩ := exists_fillMissing machine dir paths ids s
  exact ⟨machine, files, fault?, t, _, hends, hrun⟩

theorem exportBitmaps (settings : Settings) (fileKey : String) (nodes : List (String × ImageFill))
    (dir : Path) (scale : Int) (lastModified : Json) :
    AsksParts (Service.exportBitmaps settings fileKey nodes dir scale lastModified) := by
  refine (exportNodes _ _ _ _ _ _).bind fun bitmaps ↦ of_writing fun s ↦ ?_
  obtain ⟨_, _, fault?, t, hends, hrun⟩ :=
    exists_writeBitmaps settings.machine dir scale bitmaps [] nodes s
  exact ⟨_, _, fault?, t, _, hends, hrun⟩

theorem exportAssets (settings : Settings) (fileKey : String) (document : ClassifiedDocument)
    (lastModified : Json) :
    AsksParts (Service.exportAssets settings fileKey document lastModified) :=
  (exportFallbacks _ _ _ _ _).bind fun _ ↦ (fillMissing _ _ _ _).bind fun _ ↦
    exportBitmaps _ _ _ _ _ _

theorem emptyDirectory (machine : Machine) (dir : Path) :
    AsksParts (Action.emptyDirectory machine dir) := by
  refine of_same fun s ↦ ?_
  rw [outcome_emptyDirectory]
  cases machine.emptying? dir with
  | none | some _ => exact ⟨rfl, rfl⟩

theorem writeTexts (machine : Machine) (dir : Path) (texts : List (String × String)) :
    AsksParts (Service.writeTexts machine dir texts) := by
  refine of_same fun s ↦ ?_
  obtain ⟨fault?, t, hends, hrun⟩ := exists_writeTexts machine dir texts s
  obtain ⟨files, _, rfl⟩ := hends.exists_written
  rw [hrun]
  exact ⟨rfl, rfl⟩

theorem archiveSite (settings : Settings) (dir : Path) :
    AsksParts (Service.archiveSite settings dir) := by
  refine of_same fun s ↦ ?_
  obtain ⟨fault?, t, hends, hrun⟩ := exists_archiveSite settings dir s
  obtain ⟨files, rfl⟩ := hends.exists_files
  rw [hrun]
  exact ⟨rfl, rfl⟩

theorem exists_follows {a : Action α} (ha : AsksParts a) {s t : Session} {result : Except Fault α}
    (h : a.outcome s = (result, t)) : ∃ xs, Follows s xs t ∧ AreParts xs := by
  obtain ⟨xs, hfollows, hxs⟩ := ha s
  rw [h] at hfollows
  exact ⟨xs, hfollows, hxs⟩

end AsksParts

/-! ## Conversions -/

/-- How the conversion of a file ends, seen from its document: it cannot be had, it is not accepted,
or it is accepted, and then no file is asked for in full any more. -/
inductive DocumentEnds (settings : Settings) (fileKey : String) (before after : Session) :
    Except Fault ConversionAnswer → Prop
  | unavailable {xs : List Exchange} {fault : Fault} (hxs : Follows before xs after)
      (hfiles : after.files = before.files)
      (hgot : GettingEnds settings fileKey xs (.error fault)) :
      DocumentEnds settings fileKey before after (.error fault)
  | unaccepted {xs : List Exchange} {json : Json} {fault : Fault} (hxs : Follows before xs after)
      (hfiles : after.files = before.files)
      (hgot : GettingEnds settings fileKey xs (.ok json))
      (h : field json "lastModified" = .error fault ∨
        classifyDocument settings.policy json = .error fault) :
      DocumentEnds settings fileKey before after (.error fault)
  | accepted {xs ys : List Exchange} {json : Json} {document : ClassifiedDocument}
      {result : Except Fault ConversionAnswer} (hxs : Follows before (xs ++ ys) after)
      (hgot : GettingEnds settings fileKey xs (.ok json))
      (h : classifyDocument settings.policy json = .ok document) (hys : AreParts ys) :
      DocumentEnds settings fileKey before after result

theorem documentEnds_convertFile {useCache : Bool} {before after : Session}
    {result : Except Fault ConversionAnswer}
    (h : (convertFile settings fileKey useCache).outcome before = (result, after)) :
    DocumentEnds settings fileKey before after result := by
  obtain ⟨xs, hxs, hgot⟩ := ends_getDocument settings fileKey useCache before
  rcases bind_eq.mp h with ⟨fault, hget, rfl⟩ | ⟨json, fetched, hget, h⟩
  · rw [hget] at hxs hgot
    exact .unavailable hxs (files_of_getDocument hget) hgot
  have hfiles := files_of_getDocument hget
  rw [hget] at hxs hgot
  rcases bind_eq.mp h with ⟨fault, hfield, rfl⟩ | ⟨lastModified, s₁, hfield, h⟩
  · obtain ⟨hnone, rfl⟩ := ofExcept_eq_error.mp hfield
    exact .unaccepted hxs hfiles hgot (Or.inl hnone)
  obtain ⟨_, rfl⟩ := ofExcept_eq_ok.mp hfield
  rcases bind_eq.mp h with ⟨fault, hclassify, rfl⟩ | ⟨document, s₂, hclassify, h⟩
  · obtain ⟨hrefused, rfl⟩ := ofExcept_eq_error.mp hclassify
    exact .unaccepted hxs hfiles hgot (Or.inr hrefused)
  obtain ⟨hdocument, rfl⟩ := ofExcept_eq_ok.mp hclassify
  -- whatever comes after the document asks for no file in full
  have hrest := AsksParts.exists_follows (by
    refine .bind (.emptyDirectory _ _) fun _ ↦ .bind (.exportAssets _ _ _ _) fun _ ↦
      .bind (.ofExcept _) fun _ ↦ .bind (.writeTexts _ _ _) fun _ ↦
        .bind (.archiveSite _ _) fun _ ↦ .bind (.ofExcept _) fun _ ↦
          .bind (.ofExcept _) fun _ ↦ .pure _) h
  obtain ⟨ys, hfollows, hys⟩ := hrest
  exact .accepted (hxs.trans hfollows) hgot hdocument hys

/-- What is got is what has come in full. -/
theorem GettingEnds.eq_of_mem {xs : List Exchange} {result : Except Fault Json}
    {headers : List (String × String)} {reply : Reply} (h : GettingEnds settings fileKey xs result)
    (hmem : (fullRequest settings fileKey headers, reply) ∈ xs) :
    result = savedAnswer reply.answer ∧ ∃ probes, AreProbes settings fileKey probes ∧
      xs = probes ++ [(fullRequest settings fileKey headers, reply)] := by
  cases h with
  | unfetched hxs => exact Bool.noConfusion (hxs.areParts _ hmem)
  | @fetched probes headers reply hprobes =>
      rcases List.mem_append.mp hmem with hprobe | hlast
      · exact Bool.noConfusion (hprobes.areParts _ hprobe)
      · rw [List.mem_singleton] at hlast
        obtain ⟨_, rfl⟩ := Prod.mk.inj hlast
        exact ⟨rfl, probes, hprobes, by rw [hlast]⟩

theorem savedAnswer_eq_ok {v json : Json} (h : savedAnswer (.ok v) = .ok json) :
    json = v ∧ v.attributes?.isSome = true := by
  change (field v "lastModified" >>= fun _ ↦ .ok v) = _ at h
  cases hfield : field v "lastModified" with
  | error fault =>
      rw [hfield] at h
      exact nomatch h
  | ok lastModified =>
      rw [hfield] at h
      exact ⟨(Except.ok.inj h).symm, (field_eq_ok.mp hfield).1⟩

theorem savedAnswer_eq_error {v : Json} {fault : Fault} (h : savedAnswer (.ok v) = .error fault) :
    v.attributes? = none ∧ fault = .noFields v := by
  change (field v "lastModified" >>= fun _ ↦ .ok v) = _ at h
  unfold field at h
  cases hfields : v.attributes? with
  | some fields =>
      rw [hfields] at h
      exact nomatch h
  | none =>
      rw [hfields] at h
      exact ⟨rfl, (Except.error.inj h).symm⟩

theorem ofFault_of_refusesFile {fault : Fault} (h : Design.RefusesFile fault) :
    Rejection.ofFault fault = ⟨422, .str fault.message⟩ := by
  rcases h with rfl | rfl <;> rfl

/-- What a conversion is turned down with for a document that has no pages. -/
def Rejection.ofPageless (document : Json) (fault : Fault) : Rejection :=
  if document.attributes?.isSome then ⟨422, .str fault.message⟩
  else ⟨500, .str (Fault.noFields document).message⟩

/-- Whether a conversion has come to nothing but the last reply: nothing has been asked for beyond
the document, and no file has been touched. -/
structure StopsAt (settings : Settings) (fileKey : String) (before after : Session)
    (last : Exchange) : Prop where
  exchanges_eq : ∃ probes, AreProbes settings fileKey probes ∧
    exchanges before after = probes ++ [last]
  files_eq : after.files = before.files

/-- A document without pages is the last thing that is asked for, no file is touched, and the
conversion is turned down: with the fault of the document if it is an object, and else because it
has no fields. -/
theorem convert_pageless {request : ConversionRequest} {before after : Session}
    {result : Except Rejection ConversionAnswer} {headers : List (String × String)} {r : Response}
    {document : Json} {fault : Fault} (hkey : fileKey? request.figmaUrl = some fileKey)
    (h : (convert settings request).run before = (result, after))
    (hfull : (fullRequest settings fileKey headers, .response r) ∈ exchanges before after)
    (hstatus : r.status = 200) (hjson : r.json = .ok document)
    (hread : Design.readDocument document = .error fault) (hfault : Design.RefusesFile fault) :
    result = .error (.ofPageless document fault) ∧
      StopsAt settings fileKey before after (fullRequest settings fileKey headers, .response r) := by
  rw [run_convert_of_some hkey] at h
  obtain ⟨rfl, hafter⟩ := Prod.mk.inj h
  have hrefusal : r.isRefusal = false := by
    unfold Response.isRefusal
    rw [hstatus]
    rfl
  have hanswer : (Reply.response r).answer = .ok document := by
    rw [Reply.answer, hrefusal, ← hjson]
    rfl
  have hclassify : classifyDocument settings.policy document = .error fault := by
    rw [classifyDocument, hread]
    rfl
  generalize hown : (convertFile settings fileKey request.useCache).outcome before = asking
    at hafter ⊢
  obtain ⟨own, t⟩ := asking
  obtain rfl : t = after := hafter
  have hends := documentEnds_convertFile hown
  -- what has been got is the document, if it can be saved at all
  have hwhole {xs : List Exchange} {got : Except Fault Json} (hxs : Follows before xs t)
      (hgot : GettingEnds settings fileKey xs got) (hfiles : t.files = before.files) :
      got = savedAnswer (.ok document) ∧ StopsAt settings fileKey before t
        (fullRequest settings fileKey headers, .response r) := by
    rw [hxs.exchanges_eq] at hfull
    obtain ⟨hsaved, probes, hprobes, hlast⟩ := hgot.eq_of_mem hfull
    rw [hanswer] at hsaved
    exact ⟨hsaved, ⟨probes, hprobes, hxs.exchanges_eq.trans hlast⟩, hfiles⟩
  unfold Rejection.ofPageless
  cases hends with
  | unavailable hxs hfiles hgot =>
      obtain ⟨hsaved, hstops⟩ := hwhole hxs hgot hfiles
      obtain ⟨hnone, rfl⟩ := savedAnswer_eq_error hsaved.symm
      rw [hnone]
      exact ⟨rfl, hstops⟩
  | @unaccepted xs json own hxs hfiles hgot h =>
      obtain ⟨hsaved, hstops⟩ := hwhole hxs hgot hfiles
      obtain ⟨rfl, hobject⟩ := savedAnswer_eq_ok hsaved.symm
      rw [hobject]
      rcases h with hfield | hrefused
      · exact nomatch hfield.symm.trans (field_eq_ok.mpr ⟨hobject, rfl⟩)
      · obtain rfl : fault = own := Except.error.inj (hclassify.symm.trans hrefused)
        exact ⟨congrArg Except.error (ofFault_of_refusesFile hfault), hstops⟩
  | accepted hxs hgot h hys =>
      rw [hxs.exchanges_eq] at hfull
      rcases List.mem_append.mp hfull with hmem | hmem
      · obtain ⟨hsaved, _⟩ := hgot.eq_of_mem hmem
        rw [hanswer] at hsaved
        obtain ⟨rfl, _⟩ := savedAnswer_eq_ok hsaved.symm
        exact nomatch hclassify.symm.trans h
      · exact Bool.noConfusion (hys _ hmem)

/-- A session in which a body comes for the first request, and nothing afterwards. -/
def answeredWith (body : String) : Session where
  replies := [.response { body }]

def uncachedRequest : ConversionRequest := ⟨"Ab1", false⟩

def uncachedRun (body : String) : Except Rejection ConversionAnswer × Session :=
  (convert withToken uncachedRequest).run (answeredWith body)

def fullExchange (body : String) : Exchange :=
  (fullRequest withToken "Ab1" [("X-Figma-Token", "token")], .response { body })

/-- An object with nothing in it. -/
theorem convert_pageless_answeredWith :
    (uncachedRun "{}").1 = .error ⟨422, .str "Figma document has no children list"⟩ ∧
      StopsAt withToken "Ab1" (answeredWith "{}") (uncachedRun "{}").2
        (fullExchange "{}") := by
  have hkey : fileKey? uncachedRequest.figmaUrl = some "Ab1" := by decide +kernel
  have hlast : fullExchange "{}" ∈
      exchanges (answeredWith "{}") (uncachedRun "{}").2 := List.mem_singleton_self _
  have hread : Design.readDocument (.obj []) = .error .documentWithoutChildren := rfl
  exact convert_pageless hkey (Prod.eta (uncachedRun "{}")).symm hlast rfl rfl hread (.inr rfl)

/-- Not every document without pages is found to be one: an array fails before it is read. -/
theorem not_convert_pageless_unprocessable : ¬ ∀ (settings : Settings) (fileKey : String)
    (request : ConversionRequest) (before after : Session)
    (result : Except Rejection ConversionAnswer) (headers : List (String × String)) (r : Response)
    (document : Json) (fault : Fault), fileKey? request.figmaUrl = some fileKey →
    (convert settings request).run before = (result, after) →
    (fullRequest settings fileKey headers, .response r) ∈ exchanges before after →
    r.status = 200 → r.json = .ok document → Design.readDocument document = .error fault →
    Design.RefusesFile fault →
    (∃ detail, result = .error ⟨422, detail⟩) ∧
      StopsAt settings fileKey before after (fullRequest settings fileKey headers, .response r) := by
  intro h
  have hkey : fileKey? uncachedRequest.figmaUrl = some "Ab1" := by decide +kernel
  have hlast : fullExchange "[]" ∈ exchanges (answeredWith "[]") (uncachedRun "[]").2 :=
    List.mem_singleton_self _
  have hread : Design.readDocument (.arr []) = .error .documentNoObject := rfl
  obtain ⟨⟨detail, hdetail⟩, _⟩ := h withToken "Ab1" uncachedRequest (answeredWith "[]") _ _ _ _ _ _
    hkey (Prod.eta (uncachedRun "[]")).symm hlast rfl rfl hread (.inl rfl)
  have hfailed : (uncachedRun "[]").1 = .error ⟨500, .str (Fault.noFields (.arr [])).message⟩ := rfl
  have hstatus : (500 : Nat) = 422 :=
    congrArg Rejection.status (Except.error.inj (hfailed.symm.trans hdetail))
  exact absurd hstatus (by decide)

end DesignToWeb.Service
