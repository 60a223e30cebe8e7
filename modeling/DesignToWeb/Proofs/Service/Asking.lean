import DesignToWeb.Proofs.Service.Renders

/-!
# How asking for renders ends

The service is asked batch after batch, and for one batch again and again as long as
it limits the rate.  All replies but the last either limit the rate or give addresses.
With the last one all addresses are there, or it fails: a refusal, an error or no
reply at all, an answer that cannot be used, or a delay that cannot be waited.
-/

namespace DesignToWeb.Service

open Service.Action

/-! ## Replies -/

namespace Reply

/-- The addresses in a reply that is no refusal and reports no error. -/
def addresses? : Reply → Option RenderUrls
  | .failure _ => none
  | .response r => if r.isRefusal then none else (answeredUrls r).toOption

def isLimit : Reply → Bool
  | .failure _ => false
  | .response r => r.status == 429

/-- Whether asking goes on after a reply. -/
def GoesOn (reply : Reply) : Prop := reply.isLimit = true ∨ reply.addresses?.isSome = true

end Reply

/-- Whether the delay after a rate limit cannot be computed or waited. -/
inductive Response.NoDelay (settings : Settings) (attempt : Nat) (r : Response) : Fault → Prop
  | uncomputed {fault : Fault} (h : retryDelay settings r attempt = .error fault) :
      NoDelay settings attempt r fault
  | notNumber {seconds : Binary64} (hattempt : attempt < settings.imageMaxRetries)
      (h : retryDelay settings r attempt = .ok seconds) (hnan : seconds.isNaN = true) :
      NoDelay settings attempt r .nanDelay
  | uncounted {seconds : Binary64} (hattempt : attempt < settings.imageMaxRetries)
      (h : retryDelay settings r attempt = .ok seconds) (hnumber : seconds.isNaN = false)
      (hcounts : settings.machine.counts seconds = false) :
      NoDelay settings attempt r (.obstacle .uncountedDelay)
  | negative {seconds : Binary64} (hattempt : attempt < settings.imageMaxRetries)
      (h : retryDelay settings r attempt = .ok seconds)
      (hcounts : settings.machine.counts seconds = true) (hnegative : seconds.lt 0 = true) :
      NoDelay settings attempt r .negativeDelay

/-- Whether a reply to a request for addresses is the last one, with the fault it causes. -/
inductive Reply.FailsWith (settings : Settings) : Reply → Fault → Prop
  | unreachable (reason : String) : FailsWith settings (.failure reason) (.serviceFailure 502 reason)
  | refused {r : Response} (hstatus : r.status ≠ 429) (hrefusal : r.isRefusal = true) :
      FailsWith settings (.response r) r.refusal
  | unusable {r : Response} {fault : Fault} (hrefusal : r.isRefusal = false)
      (h : answeredUrls r = .error fault) : FailsWith settings (.response r) fault
  | delay {r : Response} {attempt : Nat} {fault : Fault} (hstatus : r.status = 429)
      (hattempt : attempt ≤ settings.imageMaxRetries) (h : r.NoDelay settings attempt fault) :
      FailsWith settings (.response r) fault

/-! ## Addresses -/

/-- The addresses that replies have given, one after the other, on top of others. -/
def gathered (urls : RenderUrls) (xs : List Exchange) : RenderUrls :=
  xs.foldl (fun urls x ↦ urls.merge (x.2.addresses?.getD [])) urls

theorem gathered_append (urls : RenderUrls) (xs ys : List Exchange) :
    gathered urls (xs ++ ys) = gathered (gathered urls xs) ys :=
  List.foldl_append

/-! ## How asking ends -/

section Batches

/-- Whether these are requests for addresses after all of which asking goes on. -/
def WentOn (settings : Settings) (fileKey format : String) (scale : Int) (xs : List Exchange) :
    Prop :=
  ∀ x ∈ xs, x.1.AsksRenders settings fileKey format scale ∧ x.2.GoesOn

/-- How asking stops early: there is no token, or the last reply fails. -/
inductive Stops (settings : Settings) (fileKey format : String) (scale : Int) (xs : List Exchange)
    (fault : Fault) : Prop
  | noToken (hxs : WentOn settings fileKey format scale xs)
      (h : tokenHeaders settings = .error fault)
  | failed {earlier : List Exchange} {last : Exchange} (hxs : xs = earlier ++ [last])
      (hearlier : WentOn settings fileKey format scale earlier)
      (hlast : last.1.AsksRenders settings fileKey format scale)
      (h : last.2.FailsWith settings fault)

/-- How asking ends: every reply goes on and the value has to do with them as told, or it stops
early. -/
inductive AskingEnds (settings : Settings) (fileKey format : String) (scale : Int) {α : Type}
    (value : List Exchange → α → Prop) (xs : List Exchange) : Except Fault α → Prop
  | wentOn {a : α} (hxs : WentOn settings fileKey format scale xs) (h : value xs a) :
      AskingEnds settings fileKey format scale value xs (.ok a)
  | stopped {fault : Fault} (h : Stops settings fileKey format scale xs fault) :
      AskingEnds settings fileKey format scale value xs (.error fault)

variable {settings : Settings} {fileKey format : String} {scale : Int} {α : Type}
  {value more : List Exchange → α → Prop} {xs ys : List Exchange}

theorem WentOn.append (hxs : WentOn settings fileKey format scale xs)
    (hys : WentOn settings fileKey format scale ys) :
    WentOn settings fileKey format scale (xs ++ ys) :=
  List.forall_mem_append.mpr ⟨hxs, hys⟩

theorem wentOn_nil : WentOn settings fileKey format scale [] :=
  fun _ hx ↦ absurd hx List.not_mem_nil

theorem Stops.prepend {fault : Fault} (hxs : WentOn settings fileKey format scale xs)
    (h : Stops settings fileKey format scale ys fault) :
    Stops settings fileKey format scale (xs ++ ys) fault := by
  cases h with
  | noToken hys h => exact .noToken (hxs.append hys) h
  | failed heq hearlier hlast h =>
      rw [heq, ← List.append_assoc]
      exact .failed rfl (hxs.append hearlier) hlast h

namespace AskingEnds

theorem prepend {result : Except Fault α} (hxs : WentOn settings fileKey format scale xs)
    (h : AskingEnds settings fileKey format scale more ys result)
    (hvalue : ∀ a, more ys a → value (xs ++ ys) a) :
    AskingEnds settings fileKey format scale value (xs ++ ys) result := by
  cases h with
  | wentOn hys h => exact .wentOn (hxs.append hys) (hvalue _ h)
  | stopped h => exact .stopped (h.prepend hxs)

theorem stops {fault : Fault}
    (h : AskingEnds settings fileKey format scale value xs (.error fault)) :
    Stops settings fileKey format scale xs fault := by
  cases h
  assumption

end AskingEnds

theorem gathered_limit {x : Exchange} (h : x.2.isLimit = true) (urls : RenderUrls) :
    gathered urls [x] = urls := by
  obtain ⟨request, reply⟩ := x
  cases reply with
  | failure reason => rfl
  | response r =>
      have hstatus : r.status = 429 := eq_of_beq h
      have hrefusal : r.isRefusal = true := decide_eq_true (by omega)
      have hnone : (Reply.response r).addresses? = none := by
        rw [Reply.addresses?, if_pos hrefusal]
      change urls.merge ((Reply.response r).addresses?.getD []) = urls
      rw [hnone]
      rfl

/-- Whether the outcome of a batch holds the addresses that were given. -/
def Adds (xs : List Exchange) (outcome : BatchOutcome) : Prop :=
  ∀ urls, gathered urls xs = outcome.addedTo urls

theorem wentOn_limit {request : Request} {r : Response}
    (hasks : request.AsksRenders settings fileKey format scale) (hstatus : r.status = 429) :
    WentOn settings fileKey format scale [(request, .response r)] :=
  List.forall_mem_singleton.mpr ⟨hasks, Or.inl (beq_iff_eq.mpr hstatus)⟩

/-- A reply that is no limit gives addresses, or is the last one. -/
theorem askingEnds_settled {request : Request} {r : Response}
    (hasks : request.AsksRenders settings fileKey format scale) (hstatus : r.status ≠ 429) :
    AskingEnds settings fileKey format scale Adds [(request, .response r)] r.settled := by
  unfold Response.settled
  by_cases hrefusal : r.isRefusal = true
  · rw [if_pos hrefusal]
    exact .stopped (.failed (List.nil_append _).symm wentOn_nil hasks (.refused hstatus hrefusal))
  · rw [if_neg hrefusal]
    cases hurls : answeredUrls r with
    | error fault =>
        have hunusable : (Reply.response r).FailsWith settings fault :=
          .unusable (Bool.eq_false_iff.mpr hrefusal) hurls
        exact .stopped (.failed (List.nil_append _).symm wentOn_nil hasks hunusable)
    | ok more =>
        have haddresses : (Reply.response r).addresses? = some more := by
          rw [Reply.addresses?, if_neg hrefusal, hurls]
          rfl
        have hgoes : (Reply.response r).GoesOn := Or.inr (Option.isSome_of_eq_some haddresses)
        refine .wentOn (List.forall_mem_singleton.mpr ⟨hasks, hgoes⟩) fun urls ↦ ?_
        change urls.merge ((Reply.response r).addresses?.getD []) = urls.merge more
        rw [haddresses]
        rfl

theorem noDelay_of_waitFault? {r : Response} {attempt : Nat} {seconds : Binary64} {fault : Fault}
    (hattempt : attempt < settings.imageMaxRetries)
    (h : retryDelay settings r attempt = .ok seconds)
    (hwait : waitFault? settings.machine seconds = some fault) :
    r.NoDelay settings attempt fault := by
  unfold waitFault? at hwait
  cases hnan : seconds.isNaN with
  | true =>
      rw [hnan, if_pos rfl] at hwait
      rw [← Option.some.inj hwait]
      exact .notNumber hattempt h hnan
  | false =>
      rw [hnan, if_neg Bool.false_ne_true] at hwait
      cases hcounts : settings.machine.counts seconds with
      | false =>
          rw [hcounts, Bool.not_false, if_pos rfl] at hwait
          rw [← Option.some.inj hwait]
          exact .uncounted hattempt h hnan hcounts
      | true =>
          rw [hcounts, Bool.not_true, if_neg Bool.false_ne_true] at hwait
          split at hwait
          · next hnegative =>
            rw [← Option.some.inj hwait]
            exact .negative hattempt h hcounts hnegative
          · exact nomatch hwait

theorem Response.NoDelay.eq_error_or_exists {r : Response} {attempt : Nat} {fault : Fault}
    (h : r.NoDelay settings attempt fault) : retryDelay settings r attempt = .error fault ∨
      attempt < settings.imageMaxRetries ∧ ∃ seconds, retryDelay settings r attempt = .ok seconds ∧
        waitFault? settings.machine seconds = some fault := by
  cases h with
  | uncomputed h => exact Or.inl h
  | notNumber hattempt h hnan => exact Or.inr ⟨hattempt, _, h, if_pos hnan⟩
  | uncounted hattempt h hnumber hcounts =>
      refine Or.inr ⟨hattempt, _, h, ?_⟩
      rw [waitFault?, hnumber, hcounts]
      rfl
  | @negative seconds hattempt h hcounts hnegative =>
      have hnumber : seconds.isNaN = false := by
        cases seconds with
        | nan => exact Bool.noConfusion hnegative
        | finite _ _ | infinite _ => rfl
      refine Or.inr ⟨hattempt, _, h, ?_⟩
      rw [waitFault?, hnumber, hcounts, hnegative]
      rfl

theorem Attempts.askingEnds {nodeIds : List String} {attempt left : Nat} {steps : List Step}
    {result : Except Fault BatchOutcome}
    (h : Attempts settings ("/images/" ++ fileKey) (batchParams nodeIds format scale) attempt left
      steps result) (hleft : attempt + left = (settings.imageMaxRetries + 1).toNat) :
    AskingEnds settings fileKey format scale Adds (exchangesIn steps) result := by
  -- every fault of an attempt comes with its one reply, unless there is no token
  have hstopped {request : Request} {reply : Reply} {fault : Fault}
      (hasks : request.AsksRenders settings fileKey format scale)
      (hfails : reply.FailsWith settings fault) :
      AskingEnds settings fileKey format scale Adds [(request, reply)] (.error fault) :=
    .stopped (.failed (List.nil_append _).symm wentOn_nil hasks hfails)
  induction h with
  | spent => exact .wentOn wentOn_nil fun _ ↦ rfl
  | noToken htoken => exact .stopped (.noToken wentOn_nil htoken)
  | unreachable hasks reason => exact hstopped hasks.asksRenders (.unreachable reason)
  | settled hasks hstatus => exact askingEnds_settled hasks.asksRenders hstatus
  | undelayed hasks hstatus hdelay =>
      exact hstopped hasks.asksRenders (.delay hstatus (by omega) (.uncomputed hdelay))
  | unwaited hasks hstatus hdelay hwait =>
      have hnone := noDelay_of_waitFault? (by omega) hdelay hwait
      exact hstopped hasks.asksRenders (.delay hstatus (by omega) hnone)
  | @exhausted _ request r _ hasks hstatus _ =>
      have hlimit : (Reply.response r).isLimit = true := beq_iff_eq.mpr hstatus
      exact .wentOn (wentOn_limit hasks.asksRenders hstatus) (gathered_limit hlimit)
  | @repeated _ _ request r _ steps _ hasks hstatus _ _ _ ih =>
      have hlimit : (Reply.response r).isLimit = true := beq_iff_eq.mpr hstatus
      have hwent := wentOn_limit hasks.asksRenders hstatus
      refine (ih (by omega)).prepend hwent fun outcome hadds urls ↦ ?_
      rw [gathered_append, gathered_limit hlimit]
      exact hadds urls

theorem BatchAttempts.askingEnds {urls : RenderUrls} {batches : List (List String)}
    {steps : List Step} {result : Except Fault RenderUrls}
    (h : BatchAttempts settings ("/images/" ++ fileKey) format scale urls batches steps result) :
    AskingEnds settings fileKey format scale (fun xs all ↦ all = gathered urls xs)
      (exchangesIn steps) result := by
  induction h with
  | done => exact .wentOn wentOn_nil rfl
  | @next urls _ _ _ _ _ _ hbatch _ _ ih =>
      obtain ⟨hwent, hadds⟩ := hbatch.askingEnds (Nat.zero_add _)
      rw [exchangesIn_append]
      refine ih.prepend hwent fun all hall ↦ ?_
      rw [hall, gathered_append, hadds urls]
  | @limited urls _ _ _ hbatch =>
      obtain ⟨hwent, hadds⟩ := hbatch.askingEnds (Nat.zero_add _)
      exact .wentOn hwent (hadds urls).symm
  | failed hbatch => exact .stopped (hbatch.askingEnds (Nat.zero_add _)).stops

theorem ends_askBatches (urls : RenderUrls) (batches : List (List String)) :
    Ends (askBatches settings ("/images/" ++ fileKey) format scale urls batches)
      (AskingEnds settings fileKey format scale fun xs result ↦ result = gathered urls xs) := by
  intro s
  obtain ⟨steps, htakes, hattempts⟩ := exists_batchAttempts settings ("/images/" ++ fileKey) format
    scale urls batches s
  exact ⟨_, htakes.follows, hattempts.askingEnds⟩

/-- How it ends to ask for addresses, where a failure of the service counts as none. -/
inductive AddressesEnd (settings : Settings) (fileKey format : String) (scale : Int)
    (xs : List Exchange) : Except Fault RenderUrls → Prop
  | wentOn (hxs : WentOn settings fileKey format scale xs) :
      AddressesEnd settings fileKey format scale xs (.ok (gathered [] xs))
  | givenUp {status : Int} {reason : String}
      (h : Stops settings fileKey format scale xs (.serviceFailure status reason)) :
      AddressesEnd settings fileKey format scale xs (.ok [])
  | broken {fault : Fault} (h : Stops settings fileKey format scale xs fault)
      (hfault : ∀ status reason, fault ≠ .serviceFailure status reason) :
      AddressesEnd settings fileKey format scale xs (.error fault)

variable (settings fileKey format scale) in
theorem ends_renderUrlsOrNone (nodeIds : List String) :
    Ends (renderUrlsOrNone settings fileKey nodeIds format scale)
      (AddressesEnd settings fileKey format scale) := by
  refine (ends_askBatches [] _).tryCatch ?_ ?_
  · rintro xs urls hasking
    obtain ⟨hwent, rfl⟩ := hasking
    exact .wentOn hwent
  · rintro xs fault hasking
    split
    · refine .pure ?_
      rw [List.append_nil]
      exact .givenUp hasking.stops
    · rename_i hfault
      refine (Ends.throw fault).mono ?_
      rintro ys result ⟨rfl, rfl⟩
      rw [List.append_nil]
      exact .broken hasking.stops hfault

end Batches
end DesignToWeb.Service
