import DesignToWeb.Proofs.Service.Steps
import DesignToWeb.Service.Renders

/-!
# Attempts

The steps in which a batch is asked for, again and again as long as it meets a limit,
and those in which batches are asked for one after the other.  Every run takes such
steps, and such steps are taken by every session that has their replies.  Where the
replies are cut off before a request, the same steps are taken up to there.
-/

namespace DesignToWeb.Service

open Service.Action

/-! ## Delays -/

/-- The seconds that a reply asks to wait, if it names a number. -/
def Response.retryAfter? (r : Response) : Option Binary64 :=
  (r.header? "Retry-After").bind Text.number?

theorem number?_empty : Text.number? "" = none := by decide +kernel

theorem retryDelay_eq (settings : Settings) (r : Response) (attempt : Nat) :
    retryDelay settings r attempt =
      match r.retryAfter? with
      | some seconds => .ok seconds
      | none => backoff settings attempt := by
  unfold retryDelay Response.retryAfter?
  cases r.header? "Retry-After" with
  | none => rfl
  | some text =>
      by_cases hempty : text = ""
      · subst hempty
        rewrite [Option.bind_some, number?_empty]
        rfl
      · have hgiven : (some text).filter (· != "") = some text :=
          Option.filter_some_pos (bne_iff_ne.mpr hempty)
        rewrite [hgiven, Option.bind_some]
        rfl

/-- The seconds that are waited when no number is named. -/
theorem eq_of_backoff {settings : Settings} {attempt : Nat} {seconds : Binary64}
    (h : backoff settings attempt = .ok seconds) :
    seconds = settings.retryBackoff * Binary64.ofInt (1 <<< attempt : Nat) ∧
      (Binary64.ofInt (1 <<< attempt : Nat)).isFinite = true := by
  unfold backoff Binary64.ofIntChecked at h
  dsimp only at h
  split at h
  · exact ⟨(Except.ok.inj h).symm, ‹_›⟩
  · exact nomatch h

/-! ## One batch -/

/-- Whether a request asks at a path with these parameters, and shows the token. -/
def Request.AsksAt (settings : Settings) (path : String) (params : List (String × Json))
    (request : Request) : Prop :=
  ∃ headers, tokenHeaders settings = .ok headers ∧
    request = askRequest settings path (some params) headers

/-- An answer has to be an object.  An error in it counts before the addresses. -/
theorem answeredUrls_eq (r : Response) : answeredUrls r =
    match r.json with
    | .error fault => .error fault
    | .ok body =>
      match body.attributes? with
      | none => .error (.noFields body)
      | some fields =>
        if (fields.get "err").isGiven then .error (.serviceFailure 502 (fields.get "err").label)
        else RenderUrls.ofAnswer (fields.get "images") := by
  unfold answeredUrls
  cases r.json with
  | error fault => rfl
  | ok body =>
      dsimp only
      change (do
        let error ← field body "err"
        if error.isGiven then throw (Fault.serviceFailure 502 error.label)
        RenderUrls.ofAnswer (← field body "images")) = _
      unfold field
      cases body.attributes? with
      | none => rfl
      | some fields => rfl

/-- What a reply that is no limit comes to. -/
def Response.settled (r : Response) : Except Fault BatchOutcome :=
  if r.isRefusal then .error r.refusal else .answered <$> answeredUrls r

theorem answeredUrls_of_settled {r : Response} {outcome : BatchOutcome}
    (h : r.settled = .ok outcome) :
    r.isRefusal = false ∧ ∃ urls, answeredUrls r = .ok urls ∧ outcome = .answered urls := by
  unfold Response.settled at h
  cases hrefusal : r.isRefusal with
  | true =>
      rw [hrefusal] at h
      exact nomatch h
  | false =>
      rw [hrefusal] at h
      cases hurls : answeredUrls r with
      | error fault =>
          rw [hurls] at h
          exact nomatch h
      | ok urls =>
          rw [hurls] at h
          exact ⟨rfl, urls, rfl, (Except.ok.inj h).symm⟩

/-- What an attempt comes to with a reply, in the session in which the request has been sent. -/
def attemptOutcome (settings : Settings) (path : String) (params : List (String × Json))
    (attempt left : Nat) (s : Session) : Reply → Except Fault BatchOutcome × Session
  | .failure reason => (.error (.serviceFailure 502 reason), s)
  | .response r =>
    if r.status = 429 then
      match retryDelay settings r attempt with
      | .error fault => (.error fault, s)
      | .ok seconds =>
        if left = 0 then (.ok .rateLimited, s)
        else
          match waitFault? settings.machine seconds with
          | some fault => (.error fault, s)
          | none => (askBatch settings path params (attempt + 1) left).outcome (s.waited seconds)
    else (r.settled, s)

theorem outcome_askBatch_succ (settings : Settings) (path : String)
    (params : List (String × Json)) (attempt left : Nat) (s : Session) :
    (askBatch settings path params attempt (left + 1)).outcome s =
      match tokenHeaders settings with
      | .error fault => (.error fault, s)
      | .ok headers => attemptOutcome settings path params attempt left
        (s.sent (askRequest settings path (some params) headers)) s.nextReply := by
  rw [askBatch, outcome_bind, outcome_ask]
  cases tokenHeaders settings with
  | error fault => rfl
  | ok headers =>
      cases s.nextReply with
      | failure reason => rfl
      | response r =>
          dsimp only [Reply.taken, attemptOutcome]
          by_cases hlimited : r.status = 429
          · rw [if_pos hlimited, if_pos hlimited, outcome_bind, outcome_ofExcept]
            cases retryDelay settings r attempt with
            | error fault => rfl
            | ok seconds =>
                dsimp only
                by_cases hlast : left = 0
                · rw [if_pos hlast, if_pos hlast]
                  rfl
                · rw [if_neg hlast, if_neg hlast, outcome_bind, outcome_wait]
                  cases waitFault? settings.machine seconds <;> rfl
          · rw [if_neg hlimited, if_neg hlimited, Response.settled]
            by_cases hrefusal : r.isRefusal = true
            · rw [if_pos hrefusal, if_pos hrefusal]
              rfl
            · rw [if_neg hrefusal, if_neg hrefusal, outcome_bind, outcome_ofExcept]
              cases answeredUrls r <;> rfl

/-- The steps in which a batch is asked for, from an attempt on with so many of them left, and what
they come to. -/
inductive Attempts (settings : Settings) (path : String) (params : List (String × Json)) :
    (attempt left : Nat) → List Step → Except Fault BatchOutcome → Prop
  | spent {attempt : Nat} : Attempts settings path params attempt 0 [] (.ok .notAsked)
  | noToken {attempt left : Nat} {fault : Fault} (h : tokenHeaders settings = .error fault) :
      Attempts settings path params attempt (left + 1) [] (.error fault)
  | unreachable {attempt left : Nat} {request : Request} (h : request.AsksAt settings path params)
      (reason : String) :
      Attempts settings path params attempt (left + 1) [.asked (request, .failure reason)]
        (.error (.serviceFailure 502 reason))
  | settled {attempt left : Nat} {request : Request} {r : Response}
      (h : request.AsksAt settings path params) (hstatus : r.status ≠ 429) :
      Attempts settings path params attempt (left + 1) [.asked (request, .response r)] r.settled
  | undelayed {attempt left : Nat} {request : Request} {r : Response} {fault : Fault}
      (h : request.AsksAt settings path params) (hstatus : r.status = 429)
      (hdelay : retryDelay settings r attempt = .error fault) :
      Attempts settings path params attempt (left + 1) [.asked (request, .response r)]
        (.error fault)
  | exhausted {attempt : Nat} {request : Request} {r : Response} {seconds : Binary64}
      (h : request.AsksAt settings path params) (hstatus : r.status = 429)
      (hdelay : retryDelay settings r attempt = .ok seconds) :
      Attempts settings path params attempt 1 [.asked (request, .response r)] (.ok .rateLimited)
  | unwaited {attempt left : Nat} {request : Request} {r : Response} {seconds : Binary64}
      {fault : Fault} (h : request.AsksAt settings path params) (hstatus : r.status = 429)
      (hdelay : retryDelay settings r attempt = .ok seconds)
      (hwait : waitFault? settings.machine seconds = some fault) :
      Attempts settings path params attempt (left + 2) [.asked (request, .response r)]
        (.error fault)
  | repeated {attempt left : Nat} {request : Request} {r : Response} {seconds : Binary64}
      {steps : List Step} {result : Except Fault BatchOutcome}
      (h : request.AsksAt settings path params) (hstatus : r.status = 429)
      (hdelay : retryDelay settings r attempt = .ok seconds)
      (hwait : waitFault? settings.machine seconds = none)
      (hrest : Attempts settings path params (attempt + 1) (left + 1) steps result) :
      Attempts settings path params attempt (left + 2)
        (.asked (request, .response r) :: .waited seconds :: steps) result

section Batch

variable {settings : Settings} {path : String} {params : List (String × Json)}
  {attempt left : Nat} {steps : List Step} {result : Except Fault BatchOutcome} {s t : Session}

theorem exists_attempts (settings : Settings) (path : String) (params : List (String × Json))
    (attempt left : Nat) (s : Session) :
    ∃ steps, Takes s steps ((askBatch settings path params attempt left).outcome s).2 ∧
      Attempts settings path params attempt left steps
        ((askBatch settings path params attempt left).outcome s).1 := by
  -- by induction on the attempts that are left: nothing but a limit takes another one
  induction left generalizing attempt s with
  | zero => exact ⟨[], .refl s, .spent⟩
  | succ left ih =>
      rw [outcome_askBatch_succ]
      cases htoken : tokenHeaders settings with
      | error fault => exact ⟨[], .refl s, .noToken htoken⟩
      | ok headers =>
          have hasks : (askRequest settings path (some params) headers).AsksAt settings path params :=
            ⟨headers, htoken, rfl⟩
          have hone := Takes.asked (askRequest settings path (some params) headers) (.refl (s.sent _))
          cases hreply : s.nextReply with
          | failure reason =>
              rw [hreply] at hone
              exact ⟨_, hone, .unreachable hasks reason⟩
          | response r =>
              rw [hreply] at hone
              dsimp only [attemptOutcome]
              by_cases hlimited : r.status = 429
              · rw [if_pos hlimited]
                cases hdelay : retryDelay settings r attempt with
                | error fault => exact ⟨_, hone, .undelayed hasks hlimited hdelay⟩
                | ok seconds =>
                    dsimp only
                    cases left with
                    | zero => exact ⟨_, hone, .exhausted hasks hlimited hdelay⟩
                    | succ left =>
                        rw [if_neg (Nat.succ_ne_zero left)]
                        cases hwait : waitFault? settings.machine seconds with
                        | some fault => exact ⟨_, hone, .unwaited hasks hlimited hdelay hwait⟩
                        | none =>
                            obtain ⟨steps, htakes, hrest⟩ := ih (attempt + 1)
                              ((s.sent (askRequest settings path (some params) headers)).waited
                                seconds)
                            exact ⟨_, hone.trans (.waited seconds htakes),
                              .repeated hasks hlimited hdelay hwait hrest⟩
              · rw [if_neg hlimited]
                exact ⟨_, hone, .settled hasks hlimited⟩

theorem outcome_askBatch_of_asked {request : Request} {reply : Reply}
    (h : request.AsksAt settings path params)
    (hs : Takes s (.asked (request, reply) :: steps) t) :
    (askBatch settings path params attempt (left + 1)).outcome s =
      attemptOutcome settings path params attempt left (s.sent request) reply := by
  obtain ⟨headers, htoken, rfl⟩ := h
  rw [outcome_askBatch_succ, htoken, hs.of_asked.1]

theorem Attempts.outcome_eq (h : Attempts settings path params attempt left steps result)
    (hs : Takes s steps t) :
    (askBatch settings path params attempt left).outcome s = (result, t) := by
  induction h generalizing s with
  | spent =>
      cases hs
      rfl
  | noToken htoken =>
      cases hs
      rw [outcome_askBatch_succ, htoken]
  | unreachable hasks reason =>
      rw [outcome_askBatch_of_asked hasks hs]
      cases hs.of_asked.2
      rfl
  | settled hasks hstatus =>
      rw [outcome_askBatch_of_asked hasks hs]
      cases hs.of_asked.2
      exact if_neg hstatus
  | undelayed hasks hstatus hdelay =>
      rw [outcome_askBatch_of_asked hasks hs, attemptOutcome, if_pos hstatus, hdelay]
      cases hs.of_asked.2
      rfl
  | exhausted hasks hstatus hdelay =>
      rw [outcome_askBatch_of_asked hasks hs, attemptOutcome, if_pos hstatus, hdelay]
      cases hs.of_asked.2
      rfl
  | unwaited hasks hstatus hdelay hwait =>
      rw [outcome_askBatch_of_asked hasks hs, attemptOutcome, if_pos hstatus, hdelay]
      cases hs.of_asked.2
      dsimp only
      rw [if_neg (Nat.succ_ne_zero _), hwait]
  | repeated hasks hstatus hdelay hwait _ ih =>
      rw [outcome_askBatch_of_asked hasks hs, attemptOutcome, if_pos hstatus, hdelay]
      dsimp only
      rw [if_neg (Nat.succ_ne_zero _), hwait]
      exact ih hs.of_asked.2.of_waited

theorem eq_of_singleton_eq {x y : Exchange} {earlier later : List Step}
    (h : [Step.asked y] = earlier ++ .asked x :: later) : earlier = [] ∧ x = y := by
  cases earlier with
  | nil =>
      cases h
      exact ⟨rfl, rfl⟩
  | cons step rest => exact absurd (List.cons.inj h).2 (by simp)

/-- Where no reply is left for a request, asking ends with it. -/
theorem Attempts.cutOff (h : Attempts settings path params attempt left steps result)
    {earlier later : List Step} {x : Exchange} (hsteps : steps = earlier ++ .asked x :: later) :
    Attempts settings path params attempt left (earlier ++ [.asked (x.1, noReply)])
      (.error unanswered) := by
  induction h generalizing earlier with
  | spent | noToken _ => exact absurd hsteps (by simp)
  | unreachable hasks _ | settled hasks _ | undelayed hasks _ _ | exhausted hasks _ _
    | unwaited hasks _ _ _ =>
      obtain ⟨rfl, rfl⟩ := eq_of_singleton_eq hsteps
      exact .unreachable hasks _
  | repeated hasks hstatus hdelay hwait _ ih =>
      rcases List.cons_eq_append_iff.mp hsteps with ⟨rfl, hcons⟩ | ⟨rest, rfl, hrest⟩
      · cases hcons
        exact .unreachable hasks _
      · -- the wait is no request, so the one that is cut off comes later
        rcases List.cons_eq_append_iff.mp hrest with ⟨rfl, hcons⟩ | ⟨more, rfl, hmore⟩
        · cases hcons
        · exact .repeated hasks hstatus hdelay hwait (ih hmore)

end Batch

/-! ## Batches -/

/-- The addresses together with those in the outcome of a batch. -/
def BatchOutcome.addedTo (urls : RenderUrls) : BatchOutcome → RenderUrls
  | answered more => urls.merge more
  | rateLimited | notAsked => urls

/-- The steps in which batches are asked for, one after the other, and what they come to on top of
the addresses that there are. -/
inductive BatchAttempts (settings : Settings) (path format : String) (scale : Int) :
    RenderUrls → List (List String) → List Step → Except Fault RenderUrls → Prop
  | done {urls : RenderUrls} : BatchAttempts settings path format scale urls [] [] (.ok urls)
  | next {urls : RenderUrls} {batch : List String} {rest : List (List String)}
      {steps more : List Step} {outcome : BatchOutcome} {result : Except Fault RenderUrls}
      (h : Attempts settings path (batchParams batch format scale) 0
        (settings.imageMaxRetries + 1).toNat steps (.ok outcome))
      (houtcome : outcome ≠ .rateLimited)
      (hrest : BatchAttempts settings path format scale (outcome.addedTo urls) rest more result) :
      BatchAttempts settings path format scale urls (batch :: rest) (steps ++ more) result
  | limited {urls : RenderUrls} {batch : List String} {rest : List (List String)}
      {steps : List Step}
      (h : Attempts settings path (batchParams batch format scale) 0
        (settings.imageMaxRetries + 1).toNat steps (.ok .rateLimited)) :
      BatchAttempts settings path format scale urls (batch :: rest) steps (.ok urls)
  | failed {urls : RenderUrls} {batch : List String} {rest : List (List String)}
      {steps : List Step} {fault : Fault}
      (h : Attempts settings path (batchParams batch format scale) 0
        (settings.imageMaxRetries + 1).toNat steps (.error fault)) :
      BatchAttempts settings path format scale urls (batch :: rest) steps (.error fault)

section Batches

variable {settings : Settings} {path format : String} {scale : Int} {urls : RenderUrls}
  {batches : List (List String)} {steps : List Step} {result : Except Fault RenderUrls}
  {s t : Session}

theorem exists_batchAttempts (settings : Settings) (path format : String) (scale : Int)
    (urls : RenderUrls) (batches : List (List String)) (s : Session) :
    ∃ steps, Takes s steps ((askBatches settings path format scale urls batches).outcome s).2 ∧
      BatchAttempts settings path format scale urls batches steps
        ((askBatches settings path format scale urls batches).outcome s).1 := by
  induction batches generalizing urls s with
  | nil => exact ⟨[], .refl s, .done⟩
  | cons batch rest ih =>
      obtain ⟨steps, htakes, hattempts⟩ := exists_attempts settings path
        (batchParams batch format scale) 0 (settings.imageMaxRetries + 1).toNat s
      rw [askBatches, outcome_bind]
      generalize (askBatch settings path (batchParams batch format scale) 0
        (settings.imageMaxRetries + 1).toNat).outcome s = asking at htakes hattempts ⊢
      obtain ⟨outcome, t⟩ := asking
      cases outcome with
      | error fault => exact ⟨steps, htakes, .failed hattempts⟩
      | ok outcome =>
          cases outcome with
          | answered more =>
              obtain ⟨later, hlater, hrest⟩ := ih (urls.merge more) t
              exact ⟨_, htakes.trans hlater, .next hattempts nofun hrest⟩
          | rateLimited => exact ⟨steps, htakes, .limited hattempts⟩
          | notAsked =>
              -- no attempt is allowed, so the next batch begins with the same addresses
              obtain ⟨later, hlater, hrest⟩ := ih urls t
              exact ⟨_, htakes.trans hlater, .next hattempts nofun hrest⟩

theorem BatchAttempts.outcome_eq
    (h : BatchAttempts settings path format scale urls batches steps result)
    (hs : Takes s steps t) :
    (askBatches settings path format scale urls batches).outcome s = (result, t) := by
  induction h generalizing s with
  | done =>
      cases hs
      rfl
  | @next _ _ _ _ _ outcome _ hattempts houtcome _ ih =>
      obtain ⟨u, hfirst, hlater⟩ := hs.exists_of_append
      rw [askBatches, outcome_bind, hattempts.outcome_eq hfirst]
      cases outcome with
      | answered more => exact ih hlater
      | rateLimited => exact absurd rfl houtcome
      | notAsked => exact ih hlater
  | limited hattempts =>
      rw [askBatches, outcome_bind, hattempts.outcome_eq hs]
      rfl
  | failed hattempts => rw [askBatches, outcome_bind, hattempts.outcome_eq hs]

theorem BatchAttempts.cutOff
    (h : BatchAttempts settings path format scale urls batches steps result)
    {earlier later : List Step} {x : Exchange} (hsteps : steps = earlier ++ .asked x :: later) :
    BatchAttempts settings path format scale urls batches (earlier ++ [.asked (x.1, noReply)])
      (.error unanswered) := by
  induction h generalizing earlier with
  | done => exact absurd hsteps (by simp)
  | limited hattempts | failed hattempts => exact .failed (hattempts.cutOff hsteps)
  | next hattempts houtcome _ ih =>
      rcases List.append_eq_append_iff.mp hsteps with ⟨rest, rfl, hrest⟩ | ⟨rest, hfirst, hrest⟩
      · rw [List.append_assoc]
        exact .next hattempts houtcome (ih hrest)
      · cases rest with
        | nil =>
            rw [List.append_nil] at hfirst
            subst hfirst
            exact .next hattempts houtcome (@ih [] hrest.symm)
        | cons step rest =>
            cases (List.cons.inj hrest).1
            exact .failed (hattempts.cutOff hfirst)

/-- When the replies are cut off before a request, asking ends with it in a fault, and the waits
up to then are those of the steps before it. -/
theorem BatchAttempts.outcome_cutOff
    (h : BatchAttempts settings path format scale urls batches steps result)
    (hs : Takes s steps t) {earlier later : List Step} {x : Exchange}
    (hsteps : steps = earlier ++ .asked x :: later) :
    ∃ u, (askBatches settings path format scale urls batches).outcome
        (s.cutOff (exchangesIn earlier).length) = (.error unanswered, u) ∧
      u.waits = s.waits ++ waitsIn earlier := by
  rw [hsteps] at hs
  obtain ⟨u, hu⟩ := hs.exists_cutOff
  refine ⟨u, (h.cutOff hsteps).outcome_eq hu, ?_⟩
  rw [hu.waits_eq, waitsIn_append]
  exact congrArg (s.waits ++ ·) (List.append_nil _)

/-- Asking for addresses takes the steps of its batches. -/
theorem exists_steps_of_renderUrls {fileKey : String} {nodeIds : List String}
    (h : (renderUrls settings fileKey nodeIds format scale).outcome s = (result, t)) :
    ∃ steps, Takes s steps t ∧
      BatchAttempts settings ("/images/" ++ fileKey) format scale []
        (Service.batches settings nodeIds) steps result := by
  unfold renderUrls at h
  have hsteps := exists_batchAttempts settings ("/images/" ++ fileKey) format scale []
    (Service.batches settings nodeIds) s
  rw [h] at hsteps
  exact hsteps

end Batches
end DesignToWeb.Service
