import DesignToWeb.Proofs.Service.Documents
import DesignToWeb.Proofs.Service.Exporting
import DesignToWeb.Proofs.Service.Lockstep
import DesignToWeb.Proofs.Service.Site

/-!
# Where the token goes

The token is shown to the design service and to nobody else, and nothing depends
on which token it is.  Sessions with different tokens go the same way: they differ
in what stands in one header of the requests to the design service.  Without a
token, nothing is ever asked.
-/

namespace DesignToWeb.Service

open Service.Action

/-! ## Calls -/

/-- What the service is called for: a document, renders, or a whole conversion. -/
inductive Call where
  | document (own : DocumentCall)
  | renders (own : RenderCall)
  | conversion (request : ConversionRequest)

/-- What a call comes back with, a fault or a rejection included. -/
inductive CallResult where
  | document (own : Except Fault Json)
  | renders (own : Except Fault (List (String × String)))
  | conversion (own : Except Rejection ConversionAnswer)

def Call.run (settings : Settings) (call : Call) (s : Session) : CallResult × Session :=
  match call with
  | document own => (own.run settings s).map .document id
  | renders own => (own.run settings s).map .renders id
  | conversion request => ((convert settings request).run s).map .conversion id

def runCalls (settings : Settings) : List Call → Session → List CallResult × Session
  | [], s => ([], s)
  | call :: rest, s =>
    ((call.run settings s).1 :: (runCalls settings rest (call.run settings s).2).1,
      (runCalls settings rest (call.run settings s).2).2)

variable {R : Session → Session → Prop} {settings : Settings} {token : Option String}

theorem Call.run_inStep (h : ∀ fileKey, ConvertsInStep R settings fileKey token) (call : Call)
    {s t : Session} (hst : R s t) :
    (call.run settings s).1 = (call.run { settings with figmaToken := token } t).1 ∧
      R (call.run settings s).2 (call.run { settings with figmaToken := token } t).2 := by
  cases call with
  | document own =>
      obtain ⟨hresult, hafter⟩ := (h own.fileKey).getDocument own.useCache s t hst
      exact ⟨congrArg CallResult.document hresult, hafter⟩
  | renders own =>
      obtain ⟨hresult, hafter⟩ := (h own.fileKey).exportNodes own.nodeIds own.format own.scale
        own.lastModified s t hst
      exact ⟨congrArg CallResult.renders hresult, hafter⟩
  | conversion request =>
      cases hkey : fileKey? request.figmaUrl with
      | none =>
          rw [run, run, run_convert_of_none hkey, run_convert_of_none hkey]
          exact ⟨rfl, hst⟩
      | some fileKey =>
          obtain ⟨hresult, hafter⟩ := (h fileKey).convertFile request.useCache s t hst
          rw [run, run, run_convert_of_some hkey, run_convert_of_some hkey]
          refine ⟨?_, hafter⟩
          dsimp only [Prod.map]
          rw [hresult]

theorem runCalls_inStep (h : ∀ fileKey, ConvertsInStep R settings fileKey token)
    (calls : List Call) {s t : Session} (hst : R s t) :
    (runCalls settings calls s).1 = (runCalls { settings with figmaToken := token } calls t).1 ∧
      R (runCalls settings calls s).2 (runCalls { settings with figmaToken := token } calls t).2 := by
  induction calls generalizing s t with
  | nil => exact ⟨rfl, hst⟩
  | cons call rest ih =>
      obtain ⟨hresult, hafter⟩ := call.run_inStep h hst
      obtain ⟨hresults, hend⟩ := ih hafter
      exact ⟨congrArg₂ List.cons hresult hresults, hend⟩

/-- What calls keep of a session, whatever they are. -/
theorem runCalls_keeps {P : Session → Prop}
    (h : ∀ fileKey, ConvertsInStep (Both P) settings fileKey settings.figmaToken)
    (calls : List Call) {s : Session} (hs : P s) : P (runCalls settings calls s).2 :=
  (runCalls_inStep h calls ⟨rfl, hs⟩).2.2

/-! ## Two tokens -/

def Request.redacted (request : Request) : Request :=
  { request with
    headers := request.headers.map (·.map fun header ↦
      if header.1 = "X-Figma-Token" then (header.1, "") else header) }

/-- A session without the tokens in its requests. -/
def Session.redacted (s : Session) : Session :=
  { s with requests := s.requests.map Request.redacted }

/-- Whether two sessions differ in the tokens of their requests at most. -/
def AgreeButForToken (s t : Session) : Prop := s.redacted = t.redacted

theorem Session.redacted_sent (s : Session) (request : Request) :
    (s.sent request).redacted = s.redacted.sent request.redacted := by
  rw [sent, redacted, List.map_append]
  rfl

theorem AgreeButForToken.congr {γ : Type} {s t : Session} (h : AgreeButForToken s t)
    (f : Session → γ) : f s.redacted = f t.redacted :=
  congrArg f h

theorem AgreeButForToken.map {s t : Session} (h : AgreeButForToken s t) {f : Session → Session}
    (hf : ∀ u, (f u).redacted = f u.redacted) : AgreeButForToken (f s) (f t) := by
  rw [AgreeButForToken, hf, hf, h]

theorem AgreeButForToken.sent {s t : Session} (h : AgreeButForToken s t)
    {request other : Request} (hrequest : request.redacted = other.redacted) :
    AgreeButForToken (s.sent request) (t.sent other) := by
  rw [AgreeButForToken, Session.redacted_sent, Session.redacted_sent, h, hrequest]

theorem AgreeButForToken.nextReply_eq {s t : Session} (h : AgreeButForToken s t) :
    s.nextReply = t.nextReply :=
  h.congr Session.nextReply

theorem tokenHeaders_of_ne {token : String} (h : token ≠ "") :
    tokenHeaders { settings with figmaToken := some token } = .ok [("X-Figma-Token", token)] :=
  if_neg h

theorem inStep_ask {token other : String} (htoken : token ≠ "") (hother : other ≠ "")
    (path : String) (params : Option (List (String × Json))) :
    InStep AgreeButForToken (ask { settings with figmaToken := some token } path params)
      (ask { settings with figmaToken := some other } path params) := by
  intro s t hst
  rw [outcome_ask, outcome_ask, tokenHeaders_of_ne htoken, tokenHeaders_of_ne hother]
  exact ⟨congrArg Reply.taken hst.nextReply_eq, hst.sent rfl⟩

theorem inStep_download {token other : Option String} (url : Json) :
    InStep AgreeButForToken (download { settings with figmaToken := token } url)
      (download { settings with figmaToken := other } url) := by
  have hsend : InStep AgreeButForToken (Action.send (downloadRequest settings url))
      (Action.send (downloadRequest settings url)) :=
    fun s t hst ↦ ⟨congrArg Except.ok hst.nextReply_eq, hst.sent rfl⟩
  refine .bind hsend fun reply ↦ ?_
  cases reply with
  | failure reason => exact .pure none
  | response response => exact .pure _

theorem inStep_wait (machine : Machine) (seconds : Binary64) :
    InStep AgreeButForToken (Action.wait machine seconds) (Action.wait machine seconds) := by
  intro s t hst
  rw [outcome_wait, outcome_wait]
  cases waitFault? machine seconds with
  | some fault => exact ⟨rfl, hst⟩
  | none => exact ⟨rfl, hst.map (f := fun u ↦ u.waited seconds) fun _ ↦ rfl⟩

theorem convertsInStep_of_tokens {token other : String} (htoken : token ≠ "")
    (hother : other ≠ "") (fileKey : String) :
    ConvertsInStep AgreeButForToken { settings with figmaToken := some token } fileKey
      (some other) := by
  have hfetches : FetchesInStep AgreeButForToken { settings with figmaToken := some token }
      (some other) :=
    { store_eq := fun s t hst ↦ hst.congr Session.store
      ask := fun path params _ ↦ inStep_ask htoken hother path params
      modifyStore := fun g s t hst ↦
        ⟨rfl, hst.map (f := fun u ↦ { u with store := g u.store }) fun _ ↦ rfl⟩
      wait := inStep_wait _
      download := inStep_download }
  refine convertsInStep_of_files (fun g s t hst ↦ ?_) (hfetches.getDocument fileKey)
    (hfetches.exportNodes fileKey)
  exact ⟨rfl, hst.map (f := fun u ↦ { u with files := g u.files }) fun _ ↦ rfl⟩

/-! ## Who sees the token -/

/-- Whether a request shows the token to the design service, or, as a download, shows nothing to
anybody. -/
inductive Request.IsDiscreet (settings : Settings) (request : Request) : Prop
  | asked {token path : String} {params : Option (List (String × Json))}
      (htoken : settings.figmaToken = some token) (hpath : IsApiPath path)
      (h : request = askRequest settings path params [("X-Figma-Token", token)]) :
      IsDiscreet settings request
  | downloaded {url : Json} (h : request = downloadRequest settings url) :
      IsDiscreet settings request

/-- Whether all requests since a session are discreet. -/
def SentDiscreetly (settings : Settings) (before after : Session) : Prop :=
  ∃ requests, after.requests = before.requests ++ requests ∧
    ∀ request ∈ requests, request.IsDiscreet settings

theorem SentDiscreetly.sent {before s : Session} (h : SentDiscreetly settings before s)
    {request : Request} (hrequest : request.IsDiscreet settings) :
    SentDiscreetly settings before (s.sent request) := by
  obtain ⟨requests, heq, hall⟩ := h
  refine ⟨requests ++ [request], ?_, ?_⟩
  · rw [Session.sent, heq, List.append_assoc]
  · rw [List.forall_mem_append, List.forall_mem_singleton]
    exact ⟨hall, hrequest⟩

theorem eq_of_tokenHeaders_eq_ok {headers : List (String × String)}
    (h : tokenHeaders settings = .ok headers) :
    ∃ token, settings.figmaToken = some token ∧ headers = [("X-Figma-Token", token)] := by
  unfold tokenHeaders at h
  cases htoken : settings.figmaToken with
  | none =>
      rw [htoken] at h
      exact nomatch h
  | some token =>
      rw [htoken] at h
      dsimp only at h
      split at h
      · exact nomatch h
      · exact ⟨token, rfl, (Except.ok.inj h).symm⟩

theorem convertsInStep_sentDiscreetly (before : Session) (fileKey : String) :
    ConvertsInStep (Both (SentDiscreetly settings before)) settings fileKey
      settings.figmaToken := by
  have hask (path : String) (params : Option (List (String × Json))) (hpath : IsApiPath path)
      (s : Session) (hs : SentDiscreetly settings before s) :
      SentDiscreetly settings before ((ask settings path params).outcome s).2 := by
    rw [outcome_ask]
    cases hheaders : tokenHeaders settings with
    | error fault => exact hs
    | ok headers =>
        obtain ⟨token, htoken, rfl⟩ := eq_of_tokenHeaders_eq_ok hheaders
        exact hs.sent (.asked htoken hpath rfl)
  have hdownload (url : Json) (s : Session) (hs : SentDiscreetly settings before s) :
      SentDiscreetly settings before ((download settings url).outcome s).2 := by
    unfold download
    rw [outcome_bind, outcome_send]
    dsimp only
    cases s.nextReply with
    | failure reason => exact hs.sent (.downloaded rfl)
    | response response => exact hs.sent (.downloaded rfl)
  have hwait (seconds : Binary64) (s : Session) (hs : SentDiscreetly settings before s) :
      SentDiscreetly settings before ((Action.wait settings.machine seconds).outcome s).2 := by
    rw [outcome_wait]
    cases waitFault? settings.machine seconds with
    | some fault => exact hs
    | none => exact hs
  have hfetches : FetchesInStep (Both (SentDiscreetly settings before)) settings
      settings.figmaToken :=
    { store_eq := fun s t hst ↦ congrArg Session.store hst.1
      ask := fun path params hpath ↦ .of_keeps (hask path params hpath)
      modifyStore := fun f ↦ .of_keeps fun _ hs ↦ hs
      wait := fun seconds ↦ .of_keeps (hwait seconds)
      download := fun url ↦ .of_keeps (hdownload url) }
  exact convertsInStep_of_files (fun f ↦ .of_keeps fun _ hs ↦ hs) (hfetches.getDocument fileKey)
    (hfetches.exportNodes fileKey)

/-! ## No token -/

/-- Whether there is no token to be shown. -/
def LacksToken (settings : Settings) : Prop :=
  settings.figmaToken = none ∨ settings.figmaToken = some ""

theorem tokenHeaders_of_lacksToken (h : LacksToken settings) :
    tokenHeaders settings = .error (.serviceFailure 401 "FIGMA_TOKEN not set") := by
  unfold tokenHeaders
  rcases h with h | h
  · rw [h]
  · rw [h]
    rfl

section NoToken

variable (h : LacksToken settings)

include h

theorem outcome_ask_of_lacksToken (path : String) (params : Option (List (String × Json)))
    (s : Session) :
    (ask settings path params).outcome s =
      (.error (.serviceFailure 401 "FIGMA_TOKEN not set"), s) := by
  rw [outcome_ask, tokenHeaders_of_lacksToken h]

/-- Asking for the first batch fails. -/
theorem outcome_askBatches_of_lacksToken (path format : String) (scale : Int)
    (batches : List (List String)) (s : Session) :
    (askBatches settings path format scale [] batches).outcome s = (.ok [], s) ∨
      (askBatches settings path format scale [] batches).outcome s =
        (.error (.serviceFailure 401 "FIGMA_TOKEN not set"), s) := by
  induction batches with
  | nil => exact Or.inl rfl
  | cons batch rest ih =>
      unfold askBatches
      rw [outcome_bind]
      cases (settings.imageMaxRetries + 1).toNat with
      | zero => exact ih
      | succ attempts =>
          rw [askBatch, outcome_bind, outcome_ask_of_lacksToken h]
          exact Or.inr rfl

theorem outcome_renderUrlsOrNone_of_lacksToken (fileKey : String) (nodeIds : List String)
    (format : String) (scale : Int) (s : Session) :
    (renderUrlsOrNone settings fileKey nodeIds format scale).outcome s = (.ok [], s) := by
  unfold renderUrlsOrNone renderUrls
  rw [outcome_tryCatch]
  rcases outcome_askBatches_of_lacksToken h ("/images/" ++ fileKey) format scale
    (batches settings nodeIds) s with hrun | hrun
  · rw [hrun]
  · rw [hrun]
    rfl

omit h in
/-- Where no address is known, nothing is downloaded. -/
theorem outcome_downloadAll_nil (nodeIds : List String) (s : Session) :
    (downloadAll settings [] nodeIds).outcome s = (.ok [], s) := by
  induction nodeIds with
  | nil => rfl
  | cons nodeId rest ih =>
      have hnone : ¬ (RenderUrls.get [] nodeId).isGiven = true := Bool.noConfusion
      unfold downloadAll
      dsimp only
      rw [if_neg hnone]
      change (downloadAll settings [] rest >>= _).outcome s = _
      rw [outcome_bind, ih]
      rfl

theorem requests_exportNodes_of_lacksToken (fileKey : String) (nodeIds : List String)
    (format : String) (scale : Int) (lastModified : Json) (s : Session) :
    ((exportNodes settings fileKey nodeIds format scale lastModified).outcome s).2.requests =
      s.requests := by
  rw [exportNodes, outcome_bind, outcome_store]
  dsimp only
  split
  · rfl
  · rw [outcome_bind, outcome_renderUrlsOrNone_of_lacksToken h]
    dsimp only
    rw [outcome_bind, outcome_downloadAll_nil]
    rfl

theorem convertsInStep_of_lacksToken (before : Session) (fileKey : String) :
    ConvertsInStep (Both (·.requests = before.requests)) settings fileKey settings.figmaToken := by
  have hasks : AsksInStep (Both (·.requests = before.requests)) settings settings.figmaToken :=
    { store_eq := fun s t hst ↦ congrArg Session.store hst.1
      ask := fun path params _ ↦ .of_keeps fun s hs ↦ by rwa [outcome_ask_of_lacksToken h]
      modifyStore := fun f ↦ .of_keeps fun _ hs ↦ hs }
  refine convertsInStep_of_files (fun _ ↦ .of_keeps fun _ hs ↦ hs) (hasks.getDocument fileKey) ?_
  exact fun nodeIds format scale lastModified ↦ .of_keeps fun s hs ↦
    (requests_exportNodes_of_lacksToken h fileKey nodeIds format scale lastModified s).trans hs

end NoToken

/-- However the service is called and whatever it is replied: with one token or another, the calls
come back with the same results and faults, and the sessions differ in the tokens of their requests
alone, and so not in the times waited, the store or the files; the token is shown to the design
service only; and without one nothing is requested. -/
theorem runCalls_confinesToken (settings : Settings) (calls : List Call) (s : Session) :
    (∀ token other, token ≠ "" → other ≠ "" →
      (runCalls { settings with figmaToken := some token } calls s).1 =
          (runCalls { settings with figmaToken := some other } calls s).1 ∧
        (runCalls { settings with figmaToken := some token } calls s).2.redacted =
          (runCalls { settings with figmaToken := some other } calls s).2.redacted) ∧
      SentDiscreetly settings s (runCalls settings calls s).2 ∧
      (LacksToken settings → (runCalls settings calls s).2.requests = s.requests) := by
  refine ⟨fun token other htoken hother ↦ ?_, ?_, fun h ↦ ?_⟩
  · exact runCalls_inStep (convertsInStep_of_tokens htoken hother) calls rfl
  · refine runCalls_keeps (convertsInStep_sentDiscreetly s) calls ⟨[], ?_, ?_⟩
    · exact (List.append_nil _).symm
    · exact fun request hrequest ↦ absurd hrequest List.not_mem_nil
  · exact runCalls_keeps (convertsInStep_of_lacksToken h s) calls rfl

def posterCalls : List Call := [.conversion ⟨"Ab1", true⟩]

/-- The poster is converted with either token, each of which is shown in its own run, and without
one nothing is requested. -/
theorem runCalls_confinesToken_studio :
    (runCalls { figmaToken := some "first" } posterCalls studio).2.requests.length = 5 ∧
      ((runCalls { figmaToken := some "first" } posterCalls studio).2.requests.head?.bind
        (·.headers)) = some [("X-Figma-Token", "first")] ∧
      (runCalls { figmaToken := some "first" } posterCalls studio).2.redacted =
        (runCalls { figmaToken := some "second" } posterCalls studio).2.redacted ∧
      (runCalls {} posterCalls studio).2.requests = [] := by
  obtain ⟨htokens, _, hnone⟩ := runCalls_confinesToken {} posterCalls studio
  refine ⟨by decide +kernel, by decide +kernel, ?_, hnone (Or.inl rfl)⟩
  exact (htokens "first" "second" (by decide) (by decide)).2

end DesignToWeb.Service
