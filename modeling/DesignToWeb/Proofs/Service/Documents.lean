import DesignToWeb.Proofs.Outcome
import DesignToWeb.Proofs.Service.Exchanges
import DesignToWeb.Proofs.Service.Store
import DesignToWeb.Service.Documents

/-!
# Stored documents

Documents are asked for again and again, file by file, with and without the
store.  The store follows what was fetched: it holds the last document of each
file that came in full, and it gives that document out only while the service
reports its time of change.
-/

namespace DesignToWeb.Service

open Service.Action

/-! ## What an exchange says about a file -/

/-- The JSON in a reply to the design service, unless it is refused or unreadable. -/
def Reply.answer : Reply → Except Fault Json
  | .failure reason => .error (.serviceFailure 502 reason)
  | .response r => if r.isRefusal then .error r.refusal else r.json

variable {settings : Settings} {fileKey : String}

def IsAbout (settings : Settings) (fileKey : String) (x : Exchange) : Prop :=
  x.1.url = .str (settings.apiBase ++ documentPath fileKey)

/-- The document that an exchange fetched in full for a file.  Only an object can be saved. -/
def fetched? (settings : Settings) (fileKey : String) (x : Exchange) : Option Json :=
  if x.1.url.isStr (settings.apiBase ++ documentPath fileKey) && x.1.params.isNone then
    x.2.answer.toOption.filter (·.attributes?.isSome)
  else none

/-- Whether an exchange is a probe of a file that reported a time of change. -/
def Reports (settings : Settings) (fileKey : String) (x : Exchange) (current : Json) : Prop :=
  IsAbout settings fileKey x ∧ x.1.params = some [("depth", .int 1)] ∧
    ∃ answer, x.2.answer = .ok answer ∧ field answer "lastModified" = .ok current

/-- Whether a stored document was found fresh by one of the exchanges: a probe that reported the
time of change of its record. -/
def FoundFresh (settings : Settings) (fileKey : String) (store : Store) (xs : List Exchange)
    (document : Json) : Prop :=
  ∃ record, store.document? fileKey = some record ∧ record.document = document ∧
    ∃ x ∈ xs, ∃ current, Reports settings fileKey x current ∧ current.isGiven = true ∧
      current.same record.lastModified = true

theorem fetched?_of_other {x : Exchange} (h : IsAbout settings fileKey x) {other : String}
    (hother : other ≠ fileKey) : fetched? settings other x = none := by
  have hurl : x.1.url.isStr (settings.apiBase ++ documentPath other) = false := by
    rw [IsAbout] at h
    rw [h, Json.isStr, beq_eq_false_iff_ne]
    intro heq
    exact hother (String.append_right_inj _ |>.mp (String.append_right_inj _ |>.mp heq.symm))
  rw [fetched?, hurl]
  rfl

theorem fetched?_of_probe {x : Exchange} {params : List (String × Json)}
    (h : x.1.params = some params) : fetched? settings fileKey x = none := by
  rw [fetched?, h, Option.isNone_some, Bool.and_false]
  rfl

theorem outcome_askJson (settings : Settings) (path : String)
    (params : Option (List (String × Json))) (s : Session) :
    (askJson settings path params).outcome s =
      match tokenHeaders settings with
      | .error fault => (.error fault, s)
      | .ok headers => (s.nextReply.answer, s.sent (askRequest settings path params headers)) := by
  unfold askJson
  rw [outcome_bind, outcome_ask]
  cases tokenHeaders settings with
  | error fault => rfl
  | ok headers =>
      cases s.nextReply with
      | failure reason => rfl
      | response response =>
          dsimp only [Reply.taken, Reply.answer]
          by_cases hrefusal : response.isRefusal = true
          · rw [if_pos hrefusal, if_pos hrefusal]
            rfl
          · rw [if_neg hrefusal, if_neg hrefusal]
            rfl

/-! ## How the store and the service are asked -/

/-- The request for a document with all that is in it. -/
def fullRequest (settings : Settings) (fileKey : String) (headers : List (String × String)) :
    Request :=
  askRequest settings (documentPath fileKey) none headers

/-- The request whether a document has changed. -/
def probeRequest (settings : Settings) (fileKey : String) (headers : List (String × String)) :
    Request :=
  askRequest settings (documentPath fileKey) (some [("depth", .int 1)]) headers

def recordOf (fileKey : String) (document : Json) : StoredDocument :=
  ⟨fileKey, document, document.attributes.get "lastModified"⟩

theorem field_eq_ok {j value : Json} {key : String} :
    field j key = .ok value ↔ j.attributes?.isSome = true ∧ j.attributes.get key = value := by
  unfold field Json.attributes
  cases j.attributes? with
  | none => simp
  | some a => simp

theorem outcome_saveDocument (document : Json) (s : Session) :
    (saveDocument fileKey document).outcome s =
      match field document "lastModified" with
      | .ok lastModified =>
        (.ok (), { s with store := s.store.saveDocument ⟨fileKey, document, lastModified⟩ })
      | .error fault => (.error fault, s) := by
  unfold saveDocument
  rw [outcome_bind, outcome_ofExcept]
  cases field document "lastModified" with
  | ok lastModified => rfl
  | error fault => rfl

theorem outcome_probe (s : Session) :
    (probe settings fileKey).outcome s =
      match tokenHeaders settings with
      | .error fault => (.error fault, s)
      | .ok headers => (s.nextReply.answer >>= (field · "lastModified"),
        s.sent (probeRequest settings fileKey headers)) := by
  unfold probe
  rw [outcome_bind, outcome_askJson]
  cases tokenHeaders settings with
  | error fault => rfl
  | ok headers =>
      dsimp only
      cases s.nextReply.answer with
      | error fault => rfl
      | ok answer => rfl

/-- How it can go to ask for a document in full.  Only an object is saved. -/
inductive FetchRun (settings : Settings) (fileKey : String) (s : Session) :
    Except Fault Json → Session → Prop
  | noToken {fault : Fault} (h : tokenHeaders settings = .error fault) :
      FetchRun settings fileKey s (.error fault) s
  | unanswered {headers : List (String × String)} {fault : Fault}
      (hheaders : tokenHeaders settings = .ok headers) (h : s.nextReply.answer = .error fault) :
      FetchRun settings fileKey s (.error fault) (s.sent (fullRequest settings fileKey headers))
  | noObject {headers : List (String × String)} {document : Json}
      (hheaders : tokenHeaders settings = .ok headers) (hanswer : s.nextReply.answer = .ok document)
      (h : document.attributes? = none) :
      FetchRun settings fileKey s (.error (.noFields document))
        (s.sent (fullRequest settings fileKey headers))
  | saved {headers : List (String × String)} {document : Json}
      (hheaders : tokenHeaders settings = .ok headers) (hanswer : s.nextReply.answer = .ok document)
      (h : document.attributes?.isSome = true) :
      FetchRun settings fileKey s (.ok document)
        { s.sent (fullRequest settings fileKey headers) with
          store := s.store.saveDocument (recordOf fileKey document) }

theorem fetchRun (settings : Settings) (fileKey : String) (s : Session) :
    FetchRun settings fileKey s ((fetchDocument settings fileKey).outcome s).1
      ((fetchDocument settings fileKey).outcome s).2 := by
  unfold fetchDocument
  rw [outcome_bind, outcome_askJson]
  cases hheaders : tokenHeaders settings with
  | error fault => exact .noToken hheaders
  | ok headers =>
      dsimp only
      cases hanswer : s.nextReply.answer with
      | error fault => exact .unanswered hheaders hanswer
      | ok document =>
          dsimp only
          rw [outcome_bind, outcome_saveDocument, field]
          cases hobject : document.attributes? with
          | none => exact .noObject hheaders hanswer hobject
          | some fields =>
              have hrecord : recordOf fileKey document =
                  ⟨fileKey, document, fields.get "lastModified"⟩ := by
                rw [recordOf, Json.attributes, hobject]
                rfl
              have hsaved : FetchRun settings fileKey s (.ok document) _ :=
                .saved hheaders hanswer (Option.isSome_of_eq_some hobject)
              rw [hrecord] at hsaved
              exact hsaved

/-- How it can go to ask the store for a document, and the service whether it is fresh. -/
inductive CacheRun (settings : Settings) (fileKey : String) (s : Session) :
    Except Fault (Option Json) → Session → Prop
  | notStored (h : s.store.document? fileKey = none) : CacheRun settings fileKey s (.ok none) s
  | empty {record : StoredDocument} (hrecord : s.store.document? fileKey = some record)
      (h : record.document.isGiven = false) : CacheRun settings fileKey s (.ok none) s
  | noToken {fault : Fault} (h : tokenHeaders settings = .error fault) :
      CacheRun settings fileKey s (.error fault) s
  | unanswered {headers : List (String × String)} {fault : Fault}
      (hheaders : tokenHeaders settings = .ok headers)
      (h : (s.nextReply.answer >>= (field · "lastModified")) = .error fault) :
      CacheRun settings fileKey s (.error fault) (s.sent (probeRequest settings fileKey headers))
  | probed {headers : List (String × String)} {record : StoredDocument} {current : Json}
      (hheaders : tokenHeaders settings = .ok headers)
      (hrecord : s.store.document? fileKey = some record)
      (h : (s.nextReply.answer >>= (field · "lastModified")) = .ok current) :
      CacheRun settings fileKey s
        (.ok (if current.isGiven && current.same record.lastModified then some record.document
          else none))
        (s.sent (probeRequest settings fileKey headers))

theorem cacheRun (settings : Settings) (fileKey : String) (s : Session) :
    CacheRun settings fileKey s ((cachedDocument? settings fileKey).outcome s).1
      ((cachedDocument? settings fileKey).outcome s).2 := by
  unfold cachedDocument?
  rw [outcome_bind, outcome_store]
  dsimp only
  cases hrecord : s.store.document? fileKey with
  | none => exact .notStored hrecord
  | some record =>
      dsimp only
      by_cases hempty : (!record.document.isGiven) = true
      · rw [if_pos hempty]
        exact .empty hrecord (by simpa using hempty)
      · rw [if_neg hempty, outcome_bind, outcome_probe]
        cases hheaders : tokenHeaders settings with
        | error fault => exact .noToken hheaders
        | ok headers =>
            dsimp only
            cases hcurrent : s.nextReply.answer >>= (field · "lastModified") with
            | error fault => exact .unanswered hheaders hcurrent
            | ok current => exact .probed hheaders hrecord hcurrent

/-! ## One call -/

structure DocumentCall where
  fileKey : String
  useCache : Bool

namespace DocumentCall

def run (settings : Settings) (call : DocumentCall) (s : Session) :
    Except Fault Json × Session :=
  (getDocument settings call.fileKey call.useCache).outcome s

end DocumentCall

/-- How a call can go, with the exchanges that it takes. -/
inductive DocumentStep (settings : Settings) (call : DocumentCall) (before after : Session) :
    List Exchange → Except Fault Json → Prop where
  /-- The document came in full and was saved. -/
  | fetched {xs : List Exchange} {document : Json}
      (hfetched : xs.filterMap (fetched? settings call.fileKey) = [document])
      (hlast : field document "lastModified" = .ok (recordOf call.fileKey document).lastModified)
      (hstore : after.store = before.store.saveDocument (recordOf call.fileKey document)) :
      DocumentStep settings call before after xs (.ok document)
  /-- A probe found the stored document fresh. -/
  | served {xs : List Exchange} {document : Json}
      (hfetched : xs.filterMap (fetched? settings call.fileKey) = [])
      (hcache : call.useCache = true)
      (hfresh : FoundFresh settings call.fileKey before.store xs document)
      (hstore : after.store = before.store) :
      DocumentStep settings call before after xs (.ok document)
  | failed {xs : List Exchange} {fault : Fault}
      (hfetched : xs.filterMap (fetched? settings call.fileKey) = [])
      (hstore : after.store = before.store) :
      DocumentStep settings call before after xs (.error fault)

theorem isAbout_sent (params : Option (List (String × Json))) (headers : List (String × String))
    (reply : Reply) : ∀ x ∈ [(askRequest settings (documentPath fileKey) params headers, reply)],
      IsAbout settings fileKey x :=
  List.forall_mem_singleton.mpr rfl

theorem filterMap_fetched?_full (headers : List (String × String)) (reply : Reply) :
    [(fullRequest settings fileKey headers, reply)].filterMap (fetched? settings fileKey) =
      (reply.answer.toOption.filter (·.attributes?.isSome)).toList := by
  have hone : fetched? settings fileKey (fullRequest settings fileKey headers, reply) =
      reply.answer.toOption.filter (·.attributes?.isSome) := by
    unfold fetched? fullRequest
    rw [askRequest, Json.isStr, BEq.rfl]
    rfl
  rw [List.filterMap_cons, hone]
  cases reply.answer.toOption.filter (·.attributes?.isSome) <;> rfl

theorem documentStep_fetchDocument (call : DocumentCall) (s : Session) :
    ∃ xs, Follows s xs ((fetchDocument settings call.fileKey).outcome s).2 ∧
      (∀ x ∈ xs, IsAbout settings call.fileKey x) ∧
      DocumentStep settings call s ((fetchDocument settings call.fileKey).outcome s).2 xs
        ((fetchDocument settings call.fileKey).outcome s).1 := by
  have hrun := fetchRun settings call.fileKey s
  generalize (fetchDocument settings call.fileKey).outcome s = ended at hrun ⊢
  obtain ⟨result, t⟩ := ended
  cases hrun with
  | noToken _ => exact ⟨[], .refl _, by simp, .failed rfl rfl⟩
  | unanswered _ hanswer =>
      refine ⟨_, .sent s _, isAbout_sent none _ _, .failed ?_ rfl⟩
      rw [filterMap_fetched?_full, hanswer]
      rfl
  | noObject _ hanswer hobject =>
      refine ⟨_, .sent s _, isAbout_sent none _ _, .failed ?_ rfl⟩
      rw [filterMap_fetched?_full, hanswer, Except.toOption, Option.filter_some, hobject]
      rfl
  | @saved headers document _ hanswer hobject =>
      have hfield : field document "lastModified" =
          .ok (recordOf call.fileKey document).lastModified := field_eq_ok.mpr ⟨hobject, rfl⟩
      refine ⟨_, (Follows.sent s _).trans (.of_same rfl rfl), ?_, .fetched ?_ hfield rfl⟩
      · rw [List.append_nil]
        exact isAbout_sent none headers _
      · rw [List.append_nil, filterMap_fetched?_full, hanswer, Except.toOption, Option.filter_some,
          hobject]
        rfl

/-- What went before without a fetch in full and without a change of the store counts with the
call. -/
theorem DocumentStep.prepend {call : DocumentCall} {s t u : Session} {xs ys : List Exchange}
    {result : Except Fault Json} (hstore : t.store = s.store)
    (hfetched : xs.filterMap (fetched? settings call.fileKey) = [])
    (h : DocumentStep settings call t u ys result) :
    DocumentStep settings call s u (xs ++ ys) result := by
  have happend (own : List Json) (hown : ys.filterMap (fetched? settings call.fileKey) = own) :
      (xs ++ ys).filterMap (fetched? settings call.fileKey) = own := by
    rw [List.filterMap_append, hfetched, List.nil_append, hown]
  cases h with
  | fetched hown hlast hafter => exact .fetched (happend _ hown) hlast (hstore ▸ hafter)
  | served hown hcache hfresh hafter =>
      obtain ⟨record, hrecord, hdocument, x, hx, hreports⟩ := hfresh
      exact .served (happend _ hown) hcache
        ⟨record, hstore ▸ hrecord, hdocument, x, List.mem_append_right xs hx, hreports⟩
        (hafter.trans hstore)
  | failed hown hafter => exact .failed (happend _ hown) (hafter.trans hstore)

theorem follows_cachedDocument? (settings : Settings) (fileKey : String) (s : Session) :
    ∃ xs, Follows s xs ((cachedDocument? settings fileKey).outcome s).2 ∧
      (∀ x ∈ xs, IsAbout settings fileKey x) ∧
      ((cachedDocument? settings fileKey).outcome s).2.store = s.store ∧
      xs.filterMap (fetched? settings fileKey) = [] ∧
      ∀ document, ((cachedDocument? settings fileKey).outcome s).1 = .ok (some document) →
        FoundFresh settings fileKey s.store xs document := by
  have hrun := cacheRun settings fileKey s
  generalize (cachedDocument? settings fileKey).outcome s = ended at hrun ⊢
  obtain ⟨result, t⟩ := ended
  cases hrun with
  | notStored _ | empty _ _ | noToken _ =>
      exact ⟨[], .refl _, by simp, rfl, rfl, fun _ h ↦ nomatch h⟩
  | unanswered _ _ =>
      exact ⟨_, .sent s _, isAbout_sent _ _ _, rfl,
        List.filterMap_cons_none (fetched?_of_probe rfl), fun _ h ↦ nomatch h⟩
  | @probed headers record current _ hrecord hcurrent =>
      refine ⟨_, .sent s _, isAbout_sent _ _ _, rfl,
        List.filterMap_cons_none (fetched?_of_probe rfl), fun document hdocument ↦ ?_⟩
      -- only what has the reported time of change is handed on
      obtain ⟨answer, hanswer, hfield⟩ := Outcome.bind_eq_ok.mp hcurrent
      have hserved := Except.ok.inj hdocument
      rw [Option.ite_none_right_eq_some, Bool.and_eq_true] at hserved
      obtain ⟨⟨hgiven, hsame⟩, hdocument⟩ := hserved
      exact ⟨record, hrecord, Option.some.inj hdocument, _, List.mem_singleton_self _, current,
        ⟨rfl, rfl, answer, hanswer, hfield⟩, hgiven, hsame⟩

theorem outcome_getDocument (useCache : Bool) (s : Session) :
    (getDocument settings fileKey useCache).outcome s =
      match (if useCache then cachedDocument? settings fileKey else pure none).outcome s with
      | (.ok (some document), t) => (.ok document, t)
      | (.ok none, t) => (fetchDocument settings fileKey).outcome t
      | (.error fault, t) => (.error fault, t) := by
  unfold getDocument
  cases useCache with
  | false => rfl
  | true =>
      rw [if_pos rfl]
      dsimp only
      rw [if_pos rfl, outcome_bind]
      cases (cachedDocument? settings fileKey).outcome s with
      | mk cached t =>
          rcases cached with fault | _ | document <;> rfl

theorem documentStep_run (settings : Settings) (call : DocumentCall) (s : Session) :
    ∃ xs, Follows s xs (call.run settings s).2 ∧ (∀ x ∈ xs, IsAbout settings call.fileKey x) ∧
      DocumentStep settings call s (call.run settings s).2 xs (call.run settings s).1 := by
  rw [DocumentCall.run, outcome_getDocument]
  cases hcache : call.useCache with
  | false => exact documentStep_fetchDocument call s
  | true =>
      obtain ⟨xs, hfollows, habout, hstore, hfetched, hfresh⟩ :=
        follows_cachedDocument? settings call.fileKey s
      rw [if_pos rfl]
      generalize (cachedDocument? settings call.fileKey).outcome s = cached at *
      obtain ⟨fault | _ | document, t⟩ := cached
      · exact ⟨xs, hfollows, habout, .failed hfetched hstore⟩
      · -- nothing in the store is fresh, so what the probe took comes before a fetch in full
        obtain ⟨ys, hrest, hmore, hstep⟩ := documentStep_fetchDocument call t
        refine ⟨xs ++ ys, hfollows.trans hrest, ?_, hstep.prepend hstore hfetched⟩
        exact List.forall_mem_append.mpr ⟨habout, hmore⟩
      · exact ⟨xs, hfollows, habout, .served hfetched hcache (hfresh document rfl) hstore⟩

/-! ## The store after a call -/

/-- The record of the last document that was fetched in full for a file. -/
def lastFetched? (settings : Settings) (fileKey : String) (xs : List Exchange) :
    Option StoredDocument :=
  (xs.filterMap (fetched? settings fileKey)).getLast?.map (recordOf fileKey)

theorem lastFetched?_append (xs ys : List Exchange) :
    lastFetched? settings fileKey (xs ++ ys) =
      (lastFetched? settings fileKey ys).or (lastFetched? settings fileKey xs) := by
  unfold lastFetched?
  rw [List.filterMap_append, List.getLast?_append, Option.map_or]

/-- At most one record for each file, with the time of change of its own document. -/
structure Store.IsCoherent (store : Store) : Prop where
  nodup : (store.documents.map (·.fileKey)).Nodup
  lastModified_eq : ∀ record ∈ store.documents,
    field record.document "lastModified" = .ok record.lastModified

namespace DocumentStep

variable {call : DocumentCall} {s t : Session} {xs : List Exchange} {result : Except Fault Json}

theorem isCoherent (h : DocumentStep settings call s t xs result) (hs : s.store.IsCoherent) :
    t.store.IsCoherent := by
  cases h with
  | fetched _ hlast hstore =>
      rw [hstore]
      refine ⟨nodup_upsert StoredDocument.fileKey _ hs.nodup, fun record hrecord ↦ ?_⟩
      rcases mem_upsert hrecord with rfl | hrecord
      · exact hlast
      · exact hs.lastModified_eq record hrecord
  | served _ _ _ hstore => rwa [hstore]
  | failed _ hstore => rwa [hstore]

theorem document?_eq (h : DocumentStep settings call s t xs result)
    (habout : ∀ x ∈ xs, IsAbout settings call.fileKey x) (fileKey : String) :
    t.store.document? fileKey =
      (lastFetched? settings fileKey xs).or (s.store.document? fileKey) := by
  by_cases hkey : fileKey = call.fileKey
  · subst hkey
    cases h with
    | fetched hfetched _ hstore =>
        rw [hstore, Store.document?_saveDocument, lastFetched?, hfetched, recordOf, BEq.rfl]
        rfl
    | served hfetched _ _ hstore => rw [hstore, lastFetched?, hfetched]; rfl
    | failed hfetched hstore => rw [hstore, lastFetched?, hfetched]; rfl
  · -- the exchanges of a call are about its own file alone
    have hnone : xs.filterMap (fetched? settings fileKey) = [] :=
      List.filterMap_eq_nil_iff.mpr fun x hx ↦ fetched?_of_other (habout x hx) hkey
    rw [lastFetched?, hnone]
    cases h with
    | fetched _ _ hstore =>
        rw [hstore, Store.document?_saveDocument, recordOf, beq_false_of_ne (Ne.symm hkey)]
        rfl
    | served _ _ _ hstore => rw [hstore]; rfl
    | failed _ hstore => rw [hstore]; rfl

end DocumentStep

/-! ## Runs of calls -/

def afterCalls (settings : Settings) (calls : List DocumentCall) (s : Session) : Session :=
  calls.foldl (fun s call ↦ (call.run settings s).2) s

theorem follows_afterCalls (settings : Settings) (calls : List DocumentCall) {s : Session}
    (hs : s.store.IsCoherent) :
    ∃ xs, Follows s xs (afterCalls settings calls s) ∧
      (afterCalls settings calls s).store.IsCoherent ∧
      ∀ fileKey, (afterCalls settings calls s).store.document? fileKey =
        (lastFetched? settings fileKey xs).or (s.store.document? fileKey) := by
  induction calls generalizing s with
  | nil => exact ⟨[], .refl s, hs, fun _ ↦ rfl⟩
  | cons call rest ih =>
      obtain ⟨xs, hfollows, habout, hstep⟩ := documentStep_run settings call s
      obtain ⟨ys, hrest, hcoherent, hdocuments⟩ := ih (hstep.isCoherent hs)
      refine ⟨xs ++ ys, hfollows.trans hrest, hcoherent, fun fileKey ↦ ?_⟩
      rw [lastFetched?_append, Option.or_assoc, ← hstep.document?_eq habout]
      exact hdocuments fileKey

/-- What a call may return, and what it may change. -/
structure IsCoherentCall (settings : Settings) (call : DocumentCall) (before : Session)
    (result : Except Fault Json) (after : Session) : Prop where
  /-- A returned document came in full during the call, or it is the stored one and was found fresh
  during the call. -/
  returned : ∀ document, result = .ok document →
    (∃ x ∈ exchanges before after, fetched? settings call.fileKey x = some document) ∨
      call.useCache = true ∧
        FoundFresh settings call.fileKey before.store (exchanges before after) document
  failed : ∀ fault, result = .error fault → after.store = before.store
  others : ∀ fileKey ≠ call.fileKey,
    after.store.document? fileKey = before.store.document? fileKey

theorem isCoherentCall_run (call : DocumentCall) (s : Session) :
    IsCoherentCall settings call s (call.run settings s).1 (call.run settings s).2 := by
  obtain ⟨xs, hfollows, habout, hstep⟩ := documentStep_run settings call s
  refine ⟨fun document hresult ↦ ?_, fun fault hresult ↦ ?_, fun fileKey hkey ↦ ?_⟩
  · rw [hfollows.exchanges_eq]
    rw [hresult] at hstep
    cases hstep with
    | fetched hfetched _ _ =>
        left
        have hmem : document ∈ xs.filterMap (fetched? settings call.fileKey) := by
          rw [hfetched]
          exact List.mem_singleton_self document
        exact List.mem_filterMap.mp hmem
    | served _ hcache hfresh _ => exact Or.inr ⟨hcache, hfresh⟩
  · rw [hresult] at hstep
    cases hstep with
    | failed _ hstore => exact hstore
  · have hnone : xs.filterMap (fetched? settings fileKey) = [] :=
      List.filterMap_eq_nil_iff.mpr fun x hx ↦ fetched?_of_other (habout x hx) hkey
    rw [hstep.document?_eq habout, lastFetched?, hnone]
    rfl

/-- However documents are asked for, and whatever the service replies: there is one record for a
file at most, that of the last document that came in full; and a call gives out only what came in
full or was found fresh while it ran. -/
theorem afterCalls_coherent (settings : Settings) {s : Session} (hs : s.store.IsCoherent)
    (calls : List DocumentCall) :
    (afterCalls settings calls s).store.IsCoherent ∧
      (∀ fileKey, (afterCalls settings calls s).store.document? fileKey =
        (lastFetched? settings fileKey (exchanges s (afterCalls settings calls s))).or
          (s.store.document? fileKey)) ∧
      ∀ call : DocumentCall, IsCoherentCall settings call (afterCalls settings calls s)
        (call.run settings (afterCalls settings calls s)).1
        (call.run settings (afterCalls settings calls s)).2 := by
  obtain ⟨xs, hfollows, hcoherent, hdocuments⟩ := follows_afterCalls settings calls hs
  rw [hfollows.exchanges_eq]
  exact ⟨hcoherent, hdocuments, fun call ↦ isCoherentCall_run call _⟩

/-- A session in which a file comes in full, is found fresh, is found changed and comes in full
again.  Then the service is gone. -/
def library : Session where
  replies := [.response { body := "\x7b\"lastModified\":\"1\"\x7d" },
    .response { body := "\x7b\"lastModified\":\"1\"\x7d" },
    .response { body := "\x7b\"lastModified\":\"2\"\x7d" },
    .response { body := "\x7b\"lastModified\":\"2\",\"name\":\"Card\"\x7d" }]

def browsed : Session := afterCalls withToken (List.replicate 3 ⟨"Ab1", true⟩) library

/-- After three calls the store holds what the third one fetched, and a fourth one, which fails,
leaves it there. -/
theorem afterCalls_coherent_library :
    library.store.IsCoherent ∧
      (browsed.store.document? "Ab1").map (·.lastModified.isStr "2") = some true ∧
      ∃ fault after, (DocumentCall.mk "Ab1" true).run withToken browsed = (.error fault, after) ∧
        (after.store.document? "Ab1").map (·.lastModified.isStr "2") = some true := by
  have hs : library.store.IsCoherent :=
    ⟨List.Pairwise.nil, fun record hrecord ↦ absurd hrecord List.not_mem_nil⟩
  obtain ⟨_, hdocuments, hcalls⟩ :=
    afterCalls_coherent withToken hs (List.replicate 3 ⟨"Ab1", true⟩)
  have hstored : (browsed.store.document? "Ab1").map (·.lastModified.isStr "2") = some true := by
    rw [browsed, hdocuments]
    decide +kernel
  refine ⟨hs, hstored, ?_⟩
  have hcheck : (match ((DocumentCall.mk "Ab1" true).run withToken browsed).1 with
      | .error _ => true
      | .ok _ => false) = true := by decide +kernel
  have hcall : IsCoherentCall withToken ⟨"Ab1", true⟩ browsed
      ((DocumentCall.mk "Ab1" true).run withToken browsed).1
      ((DocumentCall.mk "Ab1" true).run withToken browsed).2 := hcalls ⟨"Ab1", true⟩
  cases hrun : (DocumentCall.mk "Ab1" true).run withToken browsed with
  | mk result after =>
      rw [hrun] at hcall hcheck
      cases result with
      | ok document => exact Bool.noConfusion hcheck
      | error fault =>
          refine ⟨fault, after, rfl, ?_⟩
          rw [hcall.failed fault rfl]
          exact hstored

end DesignToWeb.Service
