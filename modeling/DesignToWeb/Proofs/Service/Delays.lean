import DesignToWeb.Proofs.Binary64.Sign
import DesignToWeb.Proofs.Service.Attempts
import DesignToWeb.Proofs.Service.Breaking

/-!
# What is waited after a limit

After a limit the seconds are waited that the reply names, whatever they are, and if they
are no number, beyond what the clock can count or negative, that ends it all.  On a clock
whose count ends, an infinite delay is never waited.  Where the reply names none, the
backoff makes up a delay that is a number and not negative.
-/

namespace DesignToWeb

/-- Whether a number of seconds is finite and not negative. -/
def Binary64.IsDuration (x : Binary64) : Prop := x.isFinite = true ∧ x.lt 0 = false

instance : DecidablePred Binary64.IsDuration := fun _ ↦ inferInstanceAs (Decidable (_ ∧ _))

/-- Whether a fault is about a delay that cannot be waited on any clock. -/
def Fault.isDelay : Fault → Bool
  | negativeDelay | nanDelay => true
  | _ => false

/-- Whether a fault is about a delay that cannot be waited on the clock that there is. -/
def Fault.isUnwaited : Fault → Bool
  | obstacle .uncountedDelay => true
  | fault => fault.isDelay

namespace Service

open Service.Action

variable {settings : Settings} {machine : Machine} {seconds : Binary64} {fault : Fault}

/-! ## Delays -/

theorem isUnwaited_of_isDelay (h : fault.isDelay = true) : fault.isUnwaited = true := by
  cases fault with
  | negativeDelay | nanDelay => rfl
  | _ => exact Bool.noConfusion h

/-- A number that is not negative can only be beyond what the clock counts. -/
theorem isDelay_of_waitFault? (hnumber : seconds.isNaN = false) (hsign : seconds.lt 0 = false)
    (h : waitFault? machine seconds = some fault) : fault.isDelay = false := by
  unfold waitFault? at h
  rw [hnumber, if_neg Bool.false_ne_true, hsign, if_neg Bool.false_ne_true] at h
  split at h
  · rw [← Option.some.inj h]
    rfl
  · exact nomatch h

theorem counts_of_waitFault? (h : waitFault? machine seconds = some (.obstacle .uncountedDelay)) :
    machine.counts seconds = false := by
  unfold waitFault? at h
  cases hcounts : machine.counts seconds with
  | false => rfl
  | true =>
      rw [hcounts, Bool.not_true, if_neg Bool.false_ne_true] at h
      split at h
      · exact nomatch h
      · split at h
        · exact nomatch h
        · exact nomatch h

/-- On a clock whose count ends, no infinite delay is counted. -/
theorem counts_infinite {limit : Binary64} (h : machine.clockEnd? = some limit)
    (hlimit : limit.isFinite = true) (negative : Bool) :
    machine.counts (.infinite negative) = false := by
  cases limit with
  | infinite _ | nan => exact Bool.noConfusion hlimit
  | finite sign magnitude =>
      have hunits := magnitude.representable.1
      have hinside (own : Bool) : -(unitsLimit : Int) < Binary64.signedUnits own magnitude ∧
          Binary64.signedUnits own magnitude < unitsLimit := by
        unfold Binary64.signedUnits
        split <;> omega
      have hinfinite : Binary64.infinite negative * 1000000000 = .infinite negative := by
        cases negative <;> decide +kernel
      rw [Machine.counts, h]
      dsimp only
      rw [hinfinite]
      cases negative with
      | false =>
          have hbeyond : (Binary64.infinite false).lt (.finite sign magnitude) = false :=
            decide_eq_false (Int.not_lt.mpr (Int.le_of_lt (hinside sign).2))
          rw [hbeyond, Bool.and_false]
      | true =>
          have hbelow : (Binary64.infinite true).lt (-.finite sign magnitude) = true :=
            decide_eq_true (hinside !sign).1
          rw [hbelow]
          rfl

theorem lt_zero_of_backoff {attempt : Nat} (hbackoff : settings.retryBackoff.IsDuration)
    (hpower : (Binary64.ofInt (1 <<< attempt : Nat)).isFinite = true) :
    (settings.retryBackoff * Binary64.ofInt (1 <<< attempt : Nat)).lt 0 = false := by
  refine Bool.eq_false_iff.mpr fun hnegative ↦ ?_
  rcases Binary64.mul_lt_zero hbackoff.1 hpower hnegative with hlt | hlt
  · exact Bool.noConfusion (hbackoff.2.symm.trans hlt)
  · exact absurd (Binary64.ofInt_lt_zero hlt) (Int.not_lt.mpr (Int.natCast_nonneg _))

/-- The backoff makes up a number that is not negative. -/
theorem sign_of_backoff {attempt : Nat} (hbackoff : settings.retryBackoff.IsDuration)
    (h : backoff settings attempt = .ok seconds) :
    seconds.isNaN = false ∧ seconds.lt 0 = false := by
  obtain ⟨rfl, hpower⟩ := eq_of_backoff h
  exact ⟨Binary64.isNaN_mul hbackoff.1 hpower, lt_zero_of_backoff hbackoff hpower⟩

/-- Whether these are the seconds after a limit: those it names or, if it names none, the backoff,
doubled for every attempt before. -/
def Response.Demands (settings : Settings) (r : Response) (seconds : Binary64) : Prop :=
  match r.retryAfter? with
  | some named => seconds = named
  | none => ∃ attempt : Nat, attempt < settings.imageMaxRetries ∧
      seconds = settings.retryBackoff * Binary64.ofInt (1 <<< attempt : Nat)

theorem demands_of_retryDelay {r : Response} {attempt : Nat}
    (h : retryDelay settings r attempt = .ok seconds) (hattempt : attempt < settings.imageMaxRetries) :
    r.Demands settings seconds := by
  rw [retryDelay_eq] at h
  unfold Response.Demands
  cases hnamed : r.retryAfter? with
  | some named =>
      rw [hnamed] at h
      exact (Except.ok.inj h).symm
  | none =>
      rw [hnamed] at h
      exact ⟨attempt, hattempt, (eq_of_backoff h).1⟩

/-! ## Rounds -/

/-- A request with the reply to it, and the seconds that are waited then, if any. -/
structure Round where
  exchange : Exchange
  wait? : Option Binary64

namespace Round

def steps (round : Round) : List Step := .asked round.exchange :: round.wait?.toList.map .waited

/-- Whether nothing is waited but what a limit demands. -/
def IsPaced (settings : Settings) (round : Round) : Prop :=
  ∀ seconds, round.wait? = some seconds → ∃ r, round.exchange.2 = .response r ∧ r.status = 429 ∧
    r.Demands settings seconds ∧ waitFault? settings.machine seconds = none

theorem isPaced_of_none (settings : Settings) (x : Exchange) : (⟨x, none⟩ : Round).IsPaced settings :=
  fun _ h ↦ nomatch h

end Round

theorem exchangesIn_rounds (rounds : List Round) :
    exchangesIn (rounds.flatMap (·.steps)) = rounds.map (·.exchange) := by
  induction rounds with
  | nil => rfl
  | cons round rest ih =>
      rw [List.flatMap_cons, exchangesIn_append, ih]
      obtain ⟨x, _ | seconds⟩ := round <;> rfl

theorem waitsIn_rounds (rounds : List Round) :
    waitsIn (rounds.flatMap (·.steps)) = rounds.filterMap (·.wait?) := by
  induction rounds with
  | nil => rfl
  | cons round rest ih =>
      rw [List.flatMap_cons, waitsIn_append, ih]
      obtain ⟨x, _ | seconds⟩ := round <;> rfl

/-- Whether steps are rounds in which nothing is waited but what limits demand. -/
def ArePaced (settings : Settings) (steps : List Step) : Prop :=
  ∃ rounds : List Round, steps = rounds.flatMap (·.steps) ∧ ∀ round ∈ rounds, round.IsPaced settings

theorem arePaced_nil (settings : Settings) : ArePaced settings [] :=
  ⟨[], rfl, fun _ h ↦ absurd h List.not_mem_nil⟩

theorem arePaced_singleton (settings : Settings) (x : Exchange) : ArePaced settings [.asked x] :=
  ⟨[⟨x, none⟩], rfl, List.forall_mem_singleton.mpr (Round.isPaced_of_none settings x)⟩

theorem ArePaced.append {steps more : List Step} (h : ArePaced settings steps)
    (hmore : ArePaced settings more) : ArePaced settings (steps ++ more) := by
  obtain ⟨rounds, rfl, hrounds⟩ := h
  obtain ⟨others, rfl, hothers⟩ := hmore
  exact ⟨rounds ++ others, List.flatMap_append.symm, List.forall_mem_append.mpr ⟨hrounds, hothers⟩⟩

section Runs

variable {path format : String} {scale : Int} {params : List (String × Json)} {steps : List Step}

theorem Attempts.arePaced {attempt left : Nat} {result : Except Fault BatchOutcome}
    (h : Attempts settings path params attempt left steps result)
    (hleft : attempt + left = (settings.imageMaxRetries + 1).toNat) : ArePaced settings steps := by
  induction h with
  | spent | noToken _ => exact arePaced_nil settings
  | unreachable _ _ | settled _ _ | undelayed _ _ _ | exhausted _ _ _ | unwaited _ _ _ _ =>
      exact arePaced_singleton settings _
  | @repeated attempt left request r seconds steps result hasks hstatus hdelay hwait _ ih =>
      have hround : (⟨(request, .response r), some seconds⟩ : Round).IsPaced settings := by
        intro _ heq
        obtain rfl := Option.some.inj heq
        exact ⟨r, rfl, hstatus, demands_of_retryDelay hdelay (by omega), hwait⟩
      have hfirst : ArePaced settings [.asked (request, .response r), .waited seconds] :=
        ⟨[_], rfl, List.forall_mem_singleton.mpr hround⟩
      exact hfirst.append (ih (by omega))

theorem BatchAttempts.arePaced {urls : RenderUrls} {batches : List (List String)}
    {result : Except Fault RenderUrls}
    (h : BatchAttempts settings path format scale urls batches steps result) :
    ArePaced settings steps := by
  induction h with
  | done => exact arePaced_nil settings
  | next hbatch _ _ ih => exact (hbatch.arePaced (Nat.zero_add _)).append ih
  | limited hbatch | failed hbatch => exact hbatch.arePaced (Nat.zero_add _)

end Runs

/-! ## Refused delays -/

theorem eq_of_retryDelay_eq_error {r : Response} {attempt : Nat}
    (h : retryDelay settings r attempt = .error fault) : fault = .integerTooLarge := by
  rw [retryDelay_eq] at h
  split at h
  · exact nomatch h
  · unfold backoff Binary64.ofIntChecked at h
    dsimp only at h
    split at h
    · exact nomatch h
    · exact (Except.error.inj h).symm

theorem retryAfter?_of_waitFault? {r : Response} {attempt : Nat}
    (hbackoff : settings.retryBackoff.IsDuration) (h : retryDelay settings r attempt = .ok seconds)
    (hwait : waitFault? machine seconds = some fault) (hdelay : fault.isDelay = true) :
    r.retryAfter? = some seconds := by
  rw [retryDelay_eq] at h
  split at h
  · next hnamed => rw [hnamed, Except.ok.inj h]
  · obtain ⟨hnumber, hsign⟩ := sign_of_backoff hbackoff h
    rw [isDelay_of_waitFault? hnumber hsign hwait] at hdelay
    exact Bool.noConfusion hdelay

theorem not_isUnwaited_of_answeredUrls {r : Response} (h : answeredUrls r = .error fault) :
    fault.isUnwaited = false := by
  refine Bool.eq_false_iff.mpr fun hdelay ↦ ?_
  have hother : ∀ status reason, fault ≠ .serviceFailure status reason := by
    rintro status reason rfl
    exact Bool.noConfusion hdelay
  cases unusable_of_answeredUrls h hother with
  | notJson _ | noObject _ _ => exact Bool.noConfusion hdelay
  | images _ _ _ _ _ hfault =>
      have hshape := ofAnswer_isShape _ _ hfault
      cases fault with
      | nanDelay | negativeDelay | obstacle _ => exact Bool.noConfusion hshape
      | _ => exact Bool.noConfusion hdelay

/-- A delay that is not waited comes from the last reply, before the last attempt. -/
theorem exists_delay_of_failsWith {reply : Reply} (h : reply.FailsWith settings fault)
    (hdelay : fault.isUnwaited = true) :
    ∃ r, ∃ attempt : Nat, ∃ seconds, reply = .response r ∧ r.status = 429 ∧
      attempt < settings.imageMaxRetries ∧ retryDelay settings r attempt = .ok seconds ∧
        waitFault? settings.machine seconds = some fault := by
  cases h with
  | unreachable _ | refused _ _ => exact Bool.noConfusion hdelay
  | unusable _ h => exact absurd hdelay (Bool.eq_false_iff.mp (not_isUnwaited_of_answeredUrls h))
  | @delay r attempt _ hstatus _ h =>
      rcases h.eq_error_or_exists with h | ⟨hattempt, seconds, h, hwait⟩
      · rw [eq_of_retryDelay_eq_error h] at hdelay
        exact Bool.noConfusion hdelay
      · exact ⟨r, attempt, seconds, rfl, hstatus, hattempt, h, hwait⟩

/-- A delay that cannot be waited on any clock has been named by the reply. -/
theorem exists_named_of_failsWith {reply : Reply} (hbackoff : settings.retryBackoff.IsDuration)
    (h : reply.FailsWith settings fault) (hdelay : fault.isDelay = true) :
    ∃ r seconds, reply = .response r ∧ r.status = 429 ∧ r.retryAfter? = some seconds ∧
      waitFault? settings.machine seconds = some fault := by
  obtain ⟨r, attempt, seconds, rfl, hstatus, _, h, hwait⟩ :=
    exists_delay_of_failsWith h (isUnwaited_of_isDelay hdelay)
  exact ⟨r, seconds, rfl, hstatus, retryAfter?_of_waitFault? hbackoff h hwait hdelay, hwait⟩

/-! ## All waits -/

/-- Whether a reply that is a limit and names a number names a duration. -/
def Reply.NamesDuration : Reply → Prop
  | .failure _ => True
  | .response r => r.status = 429 → ∀ named ∈ r.retryAfter?, named.IsDuration

instance : DecidablePred Reply.NamesDuration
  | .failure _ => .isTrue trivial
  | .response _ => inferInstanceAs (Decidable (_ → _))

/-- How asking for addresses waits. -/
structure WaitsAsDemanded (settings : Settings) (before after : Session)
    (result : Except Fault RenderUrls) : Prop where
  /-- What is waited is what a limit demands, right after it. -/
  paced : ∃ steps, Takes before steps after ∧ ArePaced settings steps
  /-- A delay that is refused has been named by a limit, and ends it all. -/
  refused : ∀ fault, result = .error fault → fault.isDelay = true →
    ∃ earlier request r seconds, exchanges before after = earlier ++ [(request, .response r)] ∧
      r.status = 429 ∧ r.retryAfter? = some seconds ∧
        waitFault? settings.machine seconds = some fault
  /-- A delay that the clock cannot count is what a limit demands, and ends it all. -/
  uncounted : result = .error (.obstacle .uncountedDelay) →
    ∃ earlier request r seconds, exchanges before after = earlier ++ [(request, .response r)] ∧
      r.status = 429 ∧ r.Demands settings seconds ∧
        settings.machine.counts seconds = false

/-- Whether all that is to be waited for is a duration, and nothing is refused on all clocks. -/
structure WaitsDurations (settings : Settings) (before after : Session)
    (result : Except Fault RenderUrls) : Prop where
  waited : ∃ waits, after.waits = before.waits ++ waits ∧ ∀ seconds ∈ waits, seconds.IsDuration
  notRefused : ∀ fault, result = .error fault → fault.isDelay = false
  /-- What is beyond the count of the clock is a duration as well. -/
  uncounted : result = .error (.obstacle .uncountedDelay) →
    ∃ earlier request r seconds, exchanges before after = earlier ++ [(request, .response r)] ∧
      r.status = 429 ∧ r.Demands settings seconds ∧ seconds.IsDuration

theorem mem_of_eq_append {x : Exchange} {xs earlier : List Exchange} (h : xs = earlier ++ [x]) :
    x ∈ xs := by
  rw [h]
  exact List.mem_append_right _ List.mem_cons_self

theorem isDuration_of_demands {r : Response} (hbackoff : settings.retryBackoff.IsDuration)
    (h : r.Demands settings seconds) (hstatus : r.status = 429)
    (hfinite : ∀ attempt : Nat, attempt < settings.imageMaxRetries →
      (settings.retryBackoff * Binary64.ofInt (1 <<< attempt : Nat)).isFinite = true)
    (hnames : (Reply.response r).NamesDuration) : seconds.IsDuration := by
  unfold Response.Demands at h
  split at h
  · next named hnamed =>
    -- the limit names the seconds
    rw [h]
    exact hnames hstatus named hnamed
  · -- the backoff makes them up
    obtain ⟨attempt, hattempt, rfl⟩ := h
    have hproduct := hfinite attempt hattempt
    exact ⟨hproduct, lt_zero_of_backoff hbackoff (Binary64.isFinite_right_of_mul hproduct)⟩

theorem WaitsAsDemanded.waitsDurations {before after : Session} {result : Except Fault RenderUrls}
    (h : WaitsAsDemanded settings before after result)
    (hbackoff : settings.retryBackoff.IsDuration)
    (hfinite : ∀ attempt : Nat, attempt < settings.imageMaxRetries →
      (settings.retryBackoff * Binary64.ofInt (1 <<< attempt : Nat)).isFinite = true)
    (hnames : ∀ x ∈ exchanges before after, x.2.NamesDuration) :
    WaitsDurations settings before after result where
  waited := by
    obtain ⟨steps, htakes, rounds, rfl, hrounds⟩ := h.paced
    refine ⟨_, htakes.waits_eq, fun seconds hseconds ↦ ?_⟩
    rw [waitsIn_rounds] at hseconds
    obtain ⟨round, hround, hwait⟩ := List.mem_filterMap.mp hseconds
    obtain ⟨r, hreply, hstatus, hdemands, _⟩ := hrounds round hround seconds hwait
    have hmem : round.exchange ∈ exchanges before after := by
      rw [htakes.follows.exchanges_eq, exchangesIn_rounds]
      exact List.mem_map_of_mem hround
    have hduration := hnames _ hmem
    rw [hreply] at hduration
    exact isDuration_of_demands hbackoff hdemands hstatus hfinite hduration
  notRefused fault hfault := by
    refine Bool.eq_false_iff.mpr fun hdelay ↦ ?_
    obtain ⟨earlier, request, r, seconds, heq, hstatus, hnamed, hwait⟩ :=
      h.refused fault hfault hdelay
    obtain ⟨hfinite, hsign⟩ := hnames _ (mem_of_eq_append heq) hstatus seconds hnamed
    rw [isDelay_of_waitFault? (Binary64.isNaN_of_isFinite hfinite) hsign hwait] at hdelay
    exact Bool.noConfusion hdelay
  uncounted huncounted := by
    obtain ⟨earlier, request, r, seconds, heq, hstatus, hdemands, _⟩ := h.uncounted huncounted
    have hmem := mem_of_eq_append heq
    exact ⟨earlier, request, r, seconds, heq, hstatus, hdemands,
      isDuration_of_demands hbackoff hdemands hstatus hfinite (hnames _ hmem)⟩

/-- What is waited is what the limits name, or what the backoff makes up.  If no limit names
anything but a duration, it is a duration always. -/
theorem renderUrls_waits {fileKey : String} {nodeIds : List String} {format : String} {scale : Int}
    {before after : Session} {result : Except Fault RenderUrls}
    (hbackoff : settings.retryBackoff.IsDuration)
    (h : (renderUrls settings fileKey nodeIds format scale).outcome before = (result, after)) :
    WaitsAsDemanded settings before after result ∧
      ((∀ attempt : Nat, attempt < settings.imageMaxRetries →
          (settings.retryBackoff * Binary64.ofInt (1 <<< attempt : Nat)).isFinite = true) →
        (∀ x ∈ exchanges before after, x.2.NamesDuration) →
          WaitsDurations settings before after result) := by
  obtain ⟨steps, htakes, hattempts⟩ := exists_steps_of_renderUrls h
  have hdemanded : WaitsAsDemanded settings before after result := by
    -- a delay that is not waited comes with the last reply
    have hlast {fault : Fault} (hfault : result = .error fault) (hdelay : fault.isUnwaited = true) :
        ∃ earlier last, exchanges before after = earlier ++ [last] ∧
          last.2.FailsWith settings fault := by
      rw [htakes.follows.exchanges_eq]
      subst hfault
      cases hattempts.askingEnds.stops with
      | noToken _ htoken =>
          rw [serviceFailure_of_tokenHeaders htoken] at hdelay
          exact Bool.noConfusion hdelay
      | @failed earlier last heq _ _ hfails => exact ⟨earlier, last, heq, hfails⟩
    refine ⟨⟨steps, htakes, hattempts.arePaced⟩, fun fault hfault hdelay ↦ ?_, fun hfault ↦ ?_⟩
    · obtain ⟨earlier, last, heq, hfails⟩ := hlast hfault (isUnwaited_of_isDelay hdelay)
      obtain ⟨r, seconds, hreply, hnamed⟩ := exists_named_of_failsWith hbackoff hfails hdelay
      exact ⟨earlier, last.1, r, seconds, by rw [heq, ← hreply], hnamed⟩
    · obtain ⟨earlier, last, heq, hfails⟩ := hlast hfault rfl
      obtain ⟨r, attempt, seconds, hreply, hstatus, hattempt, h, hwait⟩ :=
        exists_delay_of_failsWith hfails rfl
      exact ⟨earlier, last.1, r, seconds, by rw [heq, ← hreply], hstatus,
        demands_of_retryDelay h hattempt, counts_of_waitFault? hwait⟩
  exact ⟨hdemanded, hdemanded.waitsDurations hbackoff⟩

/-- A session in which a limit names a number of seconds before the answer comes. -/
def limitedFor (seconds : String) : Session where
  replies := [.response { status := 429, headers := [("Retry-After", seconds)] },
    .response { body := "\x7b\"images\":\x7b\"1:1\":\"https://img/sun\"\x7d\x7d" }]

def limitedRun (seconds : String) : Except Fault RenderUrls × Session :=
  (renderUrls withToken "Ab1" ["1:1"] "svg" 1).outcome (limitedFor seconds)

/-- Where the count of the clock ends, asking ends with an infinite delay. -/
example : (match ((renderUrls { withToken with machine := .wordClock } "Ab1" ["1:1"] "svg" 1).outcome
      (limitedFor "inf")).1 with
    | .error (.obstacle .uncountedDelay) => true
    | _ => false) = true := by decide +kernel

theorem isFinite_backoff_withToken (attempt : Nat) (h : attempt < withToken.imageMaxRetries) :
    (withToken.retryBackoff * Binary64.ofInt (1 <<< attempt : Nat)).isFinite = true := by
  have hall : ∀ attempt < 2,
      (withToken.retryBackoff * Binary64.ofInt (1 <<< attempt : Nat)).isFinite = true := by
    decide +kernel
  exact hall attempt (Int.ofNat_lt.mp h)

/-- A limit that names three seconds. -/
theorem renderUrls_waits_limitedFor : (limitedRun "3").2.waits = [3] ∧
    WaitsDurations withToken (limitedFor "3") (limitedRun "3").2 (limitedRun "3").1 := by
  have hnames : ∀ x ∈ exchanges (limitedFor "3") (limitedRun "3").2, x.2.NamesDuration := by
    decide +kernel
  have hbackoff : withToken.retryBackoff.IsDuration := by decide +kernel
  exact ⟨by decide +kernel,
    (renderUrls_waits hbackoff (Prod.eta (limitedRun "3")).symm).2 isFinite_backoff_withToken hnames⟩

/-- Not everything that is to be waited for is a duration: a limit may name a negative number. -/
theorem not_renderUrls_waitsDurations : ¬ ∀ (settings : Settings) (fileKey : String)
    (nodeIds : List String) (format : String) (scale : Int) (before after : Session)
    (result : Except Fault RenderUrls), settings.retryBackoff.IsDuration →
    (∀ attempt : Nat, attempt < settings.imageMaxRetries →
      (settings.retryBackoff * Binary64.ofInt (1 <<< attempt : Nat)).isFinite = true) →
    (renderUrls settings fileKey nodeIds format scale).outcome before = (result, after) →
    WaitsDurations settings before after result := by
  intro h
  have hwaits := h withToken "Ab1" ["1:1"] "svg" 1 (limitedFor "-1") _ _ (by decide +kernel)
    isFinite_backoff_withToken (Prod.eta (limitedRun "-1")).symm
  have hcheck : (match (limitedRun "-1").1 with
      | .ok _ => false
      | .error fault => fault.isDelay) = true := by decide +kernel
  cases hrun : (limitedRun "-1").1 with
  | ok urls =>
      rw [hrun] at hcheck
      exact Bool.noConfusion hcheck
  | error fault =>
      rw [hrun] at hcheck
      exact Bool.noConfusion (hcheck.symm.trans (hwaits.notRefused fault hrun))

end Service
end DesignToWeb
