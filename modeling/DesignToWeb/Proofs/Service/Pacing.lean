import DesignToWeb.Proofs.Service.Attempts
import DesignToWeb.Proofs.Service.Slices
import DesignToWeb.Proofs.Service.Unions

/-!
# How the service is asked for addresses

The ids are asked for slice by slice.  A slice is asked for again after a limit, once the
delay has been waited, and at most as often as is set; one that meets limits only ends it
all.  In the end the addresses of all answers are put together, the later ones winning.
-/

namespace DesignToWeb.Service

open Service.Action

/-! ## Slices of the ids -/

/-- The requests for a slice: those that met a limit, with the seconds that were waited after each,
and the last one. -/
structure SliceRequests where
  nodeIds : List String
  request : Request
  limits : List (Response × Binary64)
  last : Response

namespace SliceRequests

def steps (slice : SliceRequests) : List Step :=
  slice.limits.flatMap (fun limit ↦
    [.asked (slice.request, .response limit.1), .waited limit.2]) ++
      [.asked (slice.request, .response slice.last)]

def isLimited (slice : SliceRequests) : Bool := slice.last.status == 429

def images (slice : SliceRequests) : List (String × Json) :=
  if slice.isLimited then [] else slice.last.images.fields

/-- Whether a slice is asked for with its ids, at most so many times more than once, and again only
after a limit and the delay for it. -/
structure KeepsTo (settings : Settings) (path format : String) (scale : Int)
    (slice : SliceRequests) : Prop where
  asks : slice.request.AsksAt settings path (batchParams slice.nodeIds format scale)
  limits_status : ∀ limit ∈ slice.limits, limit.1.status = 429
  waits_eq : ∀ (j : Nat) (limit : Response × Binary64), slice.limits[j]? = some limit →
    limit.2 = match limit.1.retryAfter? with
      | some seconds => seconds
      | none => settings.retryBackoff * Binary64.ofInt (1 <<< j : Nat)
  length_le : slice.limits.length ≤ settings.imageMaxRetries
  limited : slice.isLimited = true → slice.limits.length = settings.imageMaxRetries
  answered : slice.isLimited = false → (Reply.response slice.last).addresses?.isSome = true

end SliceRequests

/-! ## Attempts that end in an outcome -/

/-- Whether these are the limits that are met from an attempt on, with so many of them left, and the
last reply and what it comes to. -/
structure Took (settings : Settings) (attempt left : Nat) (limits : List (Response × Binary64))
    (last : Response) (outcome : BatchOutcome) : Prop where
  limits_status : ∀ limit ∈ limits, limit.1.status = 429
  delays : ∀ (j : Nat) (limit : Response × Binary64), limits[j]? = some limit →
    retryDelay settings limit.1 (attempt + j) = .ok limit.2
  length_le : limits.length ≤ left
  limited : last.status = 429 → limits.length = left ∧ outcome = .rateLimited
  answered : last.status ≠ 429 →
    ∃ urls, (Reply.response last).addresses? = some urls ∧ outcome = .answered urls

section Slices

variable {settings : Settings} {path format : String} {scale : Int}
  {params : List (String × Json)} {attempt left : Nat} {steps : List Step}
  {outcome : BatchOutcome}

theorem Request.AsksAt.eq {request other : Request} (h : request.AsksAt settings path params)
    (hother : other.AsksAt settings path params) : request = other := by
  obtain ⟨headers, htoken, rfl⟩ := h
  obtain ⟨others, hothers, rfl⟩ := hother
  rw [htoken] at hothers
  rw [Except.ok.inj hothers]

theorem took_of_settled {last : Response} (hstatus : last.status ≠ 429)
    (h : last.settled = .ok outcome) : Took settings attempt left [] last outcome where
  limits_status _ hmem := absurd hmem List.not_mem_nil
  delays _ _ hget := nomatch hget
  length_le := Nat.zero_le left
  limited hlimited := absurd hlimited hstatus
  answered _ := by
    obtain ⟨hrefusal, urls, hurls, houtcome⟩ := answeredUrls_of_settled h
    refine ⟨urls, ?_, houtcome⟩
    rw [Reply.addresses?, hrefusal, hurls]
    rfl

theorem took_of_exhausted {last : Response} (hstatus : last.status = 429) :
    Took settings attempt 0 [] last .rateLimited where
  limits_status _ hmem := absurd hmem List.not_mem_nil
  delays _ _ hget := nomatch hget
  length_le := Nat.le_refl 0
  limited _ := ⟨rfl, rfl⟩
  answered hanswered := absurd hstatus hanswered

theorem Took.cons {limits : List (Response × Binary64)} {last r : Response} {seconds : Binary64}
    (h : Took settings (attempt + 1) left limits last outcome) (hstatus : r.status = 429)
    (hdelay : retryDelay settings r attempt = .ok seconds) :
    Took settings attempt (left + 1) ((r, seconds) :: limits) last outcome where
  limits_status := List.forall_mem_cons.mpr ⟨hstatus, h.limits_status⟩
  delays j limit hget := by
    cases j with
    | zero =>
        obtain rfl := Option.some.inj hget
        exact hdelay
    | succ j =>
        have hrest := h.delays j limit hget
        rwa [Nat.add_right_comm] at hrest
  length_le := Nat.succ_le_succ h.length_le
  limited hlimited := ⟨congrArg Nat.succ (h.limited hlimited).1, (h.limited hlimited).2⟩
  answered := h.answered

/-- Attempts that end in an outcome are some limits with their delays, and a last reply. -/
theorem Attempts.exists_took
    (h : Attempts settings path params attempt (left + 1) steps (.ok outcome))
    (nodeIds : List String) : ∃ request limits last, request.AsksAt settings path params ∧
      steps = (⟨nodeIds, request, limits, last⟩ : SliceRequests).steps ∧
      Took settings attempt left limits last outcome := by
  generalize hleft : left + 1 = attempts at h
  generalize hresult : (Except.ok outcome : Except Fault BatchOutcome) = result at h
  induction h generalizing left with
  | spent => exact nomatch hleft
  | noToken _ | unreachable _ _ | undelayed _ _ _ | unwaited _ _ _ _ => exact nomatch hresult
  | @settled _ _ request last hasks hstatus =>
      exact ⟨request, [], last, hasks, rfl, took_of_settled hstatus hresult.symm⟩
  | @exhausted _ request last _ hasks hstatus _ =>
      obtain rfl := Nat.succ.inj hleft
      obtain rfl := Except.ok.inj hresult
      exact ⟨request, [], last, hasks, rfl, took_of_exhausted hstatus⟩
  | @repeated attempt left request r seconds steps result hasks hstatus hdelay _ _ ih =>
      obtain rfl := Nat.succ.inj hleft
      obtain ⟨other, limits, last, hother, rfl, htook⟩ := ih rfl hresult
      obtain rfl := hasks.eq hother
      exact ⟨request, (r, seconds) :: limits, last, hasks, rfl, htook.cons hstatus hdelay⟩

theorem Took.keepsTo {nodeIds : List String} {request : Request}
    {limits : List (Response × Binary64)} {last : Response}
    (hasks : request.AsksAt settings path (batchParams nodeIds format scale))
    (h : Took settings 0 settings.imageMaxRetries.toNat limits last outcome)
    (hretries : 0 ≤ settings.imageMaxRetries) :
    (⟨nodeIds, request, limits, last⟩ : SliceRequests).KeepsTo settings path format scale where
  asks := hasks
  limits_status := h.limits_status
  waits_eq j limit hget := by
    have hdelay := h.delays j limit hget
    rw [Nat.zero_add, retryDelay_eq] at hdelay
    cases hnamed : limit.1.retryAfter? with
    | some seconds =>
        rw [hnamed] at hdelay
        exact (Except.ok.inj hdelay).symm
    | none =>
        rw [hnamed] at hdelay
        exact (eq_of_backoff hdelay).1
  length_le := by
    have hle := h.length_le
    change (limits.length : Int) ≤ _
    omega
  limited hlimited := by
    have hlength := (h.limited (eq_of_beq hlimited)).1
    change (limits.length : Int) = _
    omega
  answered hanswered := by
    obtain ⟨urls, hurls, _⟩ := h.answered (ne_of_beq_false hanswered)
    exact Option.isSome_of_eq_some hurls

/-! ## Slice after slice -/

/-- Whether batches are asked for in these slices: one after the other, up to one that meets limits
only. -/
structure InSlices (settings : Settings) (path format : String) (scale : Int)
    (batches : List (List String)) (slices : List SliceRequests) : Prop where
  keepsTo : ∀ slice ∈ slices, slice.KeepsTo settings path format scale
  goesOn : ∀ slice ∈ slices.dropLast, slice.isLimited = false
  batches_eq : ∃ unasked, batches = slices.map (·.nodeIds) ++ unasked ∧
    (unasked ≠ [] → slices.getLast?.any (·.isLimited) = true)

theorem inSlices_nil : InSlices settings path format scale [] [] where
  keepsTo _ hmem := absurd hmem List.not_mem_nil
  goesOn _ hmem := absurd hmem List.not_mem_nil
  batches_eq := ⟨[], rfl, fun hne ↦ absurd rfl hne⟩

theorem inSlices_singleton {slice : SliceRequests} (rest : List (List String))
    (hslice : slice.KeepsTo settings path format scale) (hlimited : slice.isLimited = true) :
    InSlices settings path format scale (slice.nodeIds :: rest) [slice] where
  keepsTo := List.forall_mem_singleton.mpr hslice
  goesOn _ hmem := absurd hmem List.not_mem_nil
  batches_eq := ⟨rest, rfl, fun _ ↦ hlimited⟩

theorem InSlices.cons {slice : SliceRequests} {batches : List (List String)}
    {slices : List SliceRequests} (h : InSlices settings path format scale batches slices)
    (hslice : slice.KeepsTo settings path format scale) (hanswered : slice.isLimited = false) :
    InSlices settings path format scale (slice.nodeIds :: batches) (slice :: slices) where
  keepsTo := List.forall_mem_cons.mpr ⟨hslice, h.keepsTo⟩
  goesOn := by
    cases slices with
    | nil => exact fun _ hmem ↦ absurd hmem List.not_mem_nil
    | cons second rest => exact List.forall_mem_cons.mpr ⟨hanswered, h.goesOn⟩
  batches_eq := by
    obtain ⟨unasked, heq, hstopped⟩ := h.batches_eq
    refine ⟨unasked, by rw [heq]; rfl, fun hne ↦ ?_⟩
    cases slices with
    | nil => exact Bool.noConfusion (hstopped hne)
    | cons second rest => exact hstopped hne

theorem BatchAttempts.exists_inSlices {urls result : RenderUrls} {batches : List (List String)}
    (h : BatchAttempts settings path format scale urls batches steps (.ok result))
    (hretries : 0 ≤ settings.imageMaxRetries) :
    ∃ slices, steps = slices.flatMap (·.steps) ∧
      InSlices settings path format scale batches slices := by
  have hattempts : (settings.imageMaxRetries + 1).toNat = settings.imageMaxRetries.toNat + 1 := by
    omega
  generalize hresult : (Except.ok result : Except Fault RenderUrls) = ending at h
  induction h with
  | done => exact ⟨[], rfl, inSlices_nil⟩
  | @next _ batch _ _ _ _ _ hbatch houtcome _ ih =>
      -- another slice follows, so this one did not end with a limit
      obtain ⟨slices, rfl, hslices⟩ := ih hresult
      rw [hattempts] at hbatch
      obtain ⟨request, limits, last, hasks, rfl, htook⟩ := hbatch.exists_took batch
      have hanswered : last.status ≠ 429 := fun hstatus ↦ houtcome (htook.limited hstatus).2
      exact ⟨_ :: slices, rfl,
        hslices.cons (htook.keepsTo hasks hretries) (beq_eq_false_iff_ne.mpr hanswered)⟩
  | @limited _ batch _ _ hbatch =>
      -- any other last reply would have come to addresses
      rw [hattempts] at hbatch
      obtain ⟨request, limits, last, hasks, rfl, htook⟩ := hbatch.exists_took batch
      refine ⟨[_], (List.append_nil _).symm, inSlices_singleton _ (htook.keepsTo hasks hretries) ?_⟩
      refine beq_iff_eq.mpr (Decidable.byContradiction fun hstatus ↦ ?_)
      obtain ⟨more, _, houtcome⟩ := htook.answered hstatus
      exact nomatch houtcome
  | failed _ => exact nomatch hresult

/-! ## What the answers give -/

theorem exchangesIn_steps (slice : SliceRequests) :
    exchangesIn slice.steps = slice.limits.map (fun limit ↦ (slice.request, .response limit.1)) ++
      [(slice.request, .response slice.last)] := by
  obtain ⟨nodeIds, request, limits, last⟩ := slice
  unfold SliceRequests.steps
  rw [exchangesIn_append]
  congr 1
  induction limits with
  | nil => rfl
  | cons limit rest ih => exact congrArg (_ :: ·) ih

theorem gathered_limits {xs : List Exchange} (h : ∀ x ∈ xs, x.2.isLimit = true)
    (urls : RenderUrls) : gathered urls xs = urls := by
  induction xs with
  | nil => rfl
  | cons x rest ih =>
      obtain ⟨hx, hrest⟩ := List.forall_mem_cons.mp h
      rw [← List.singleton_append, gathered_append, gathered_limit hx, ih hrest]

theorem gathered_steps {slice : SliceRequests} (h : slice.KeepsTo settings path format scale)
    (urls : RenderUrls) : gathered urls (exchangesIn slice.steps) =
      gathered urls [(slice.request, .response slice.last)] := by
  have hlimits : ∀ x ∈ slice.limits.map fun limit ↦ (slice.request, Reply.response limit.1),
      x.2.isLimit = true := by
    rw [List.forall_mem_map]
    exact fun limit hlimit ↦ beq_iff_eq.mpr (h.limits_status limit hlimit)
  rw [exchangesIn_steps, gathered_append, gathered_limits hlimits]

/-- What a slice gives on top of the last values of some fields. -/
theorem exists_gathered_steps {slice : SliceRequests} {fields : List (String × Json)}
    {table : Attributes} (h : slice.KeepsTo settings path format scale)
    (hholds : slice.isLimited = false → slice.last.HoldsImages) (htable : HoldsLast fields table) :
    ∃ all, gathered (.ofTable table) (exchangesIn slice.steps) = .ofTable all ∧
      HoldsLast (fields ++ slice.images) all := by
  unfold SliceRequests.images
  rw [gathered_steps h]
  cases hlimited : slice.isLimited with
  | true =>
      have hlimit : (slice.request, Reply.response slice.last).2.isLimit = true := hlimited
      exact ⟨table, gathered_limit hlimit _, by rwa [if_pos rfl, List.append_nil]⟩
  | false =>
      have haddresses := Response.addresses?_eq_ofTable (h.answered hlimited) (hholds hlimited)
      obtain ⟨all, hmerge, hall⟩ := RenderUrls.exists_merge_ofTable htable slice.last.images
      refine ⟨all, ?_, hall⟩
      change RenderUrls.merge _ ((Reply.response slice.last).addresses?.getD []) = _
      rw [haddresses, Option.getD_some, hmerge]

theorem exists_gathered_flatMap {slices : List SliceRequests} {fields : List (String × Json)}
    {table : Attributes} (h : ∀ slice ∈ slices, slice.KeepsTo settings path format scale)
    (hholds : ∀ slice ∈ slices, slice.isLimited = false → slice.last.HoldsImages)
    (htable : HoldsLast fields table) :
    ∃ all, gathered (.ofTable table) (exchangesIn (slices.flatMap (·.steps))) = .ofTable all ∧
      HoldsLast (fields ++ slices.flatMap (·.images)) all := by
  induction slices generalizing fields table with
  | nil => exact ⟨table, rfl, by rwa [List.flatMap_nil, List.append_nil]⟩
  | cons slice rest ih =>
      obtain ⟨hslice, hrest⟩ := List.forall_mem_cons.mp h
      obtain ⟨hheld, hholds⟩ := List.forall_mem_cons.mp hholds
      obtain ⟨more, hmore, hlast⟩ := exists_gathered_steps hslice hheld htable
      obtain ⟨all, hall, hgathered⟩ := ih hrest hholds hlast
      refine ⟨all, ?_, by rwa [List.append_assoc] at hgathered⟩
      rw [List.flatMap_cons, exchangesIn_append, gathered_append, hmore, hall]

end Slices

/-! ## All of it -/

/-- What is done, and what comes of it, when the service is asked for the addresses of nodes. -/
structure Protocol (settings : Settings) (fileKey : String) (nodeIds : List String)
    (format : String) (scale : Int) (before after : Session) (slices : List SliceRequests)
    (urls : RenderUrls) : Prop where
  /-- Slice after slice is asked for, and nothing else happens. -/
  takes : Takes before (slices.flatMap (·.steps)) after
  /-- The waits are where the steps have them: with the replies before a request only, it is the
  last one, and the waits are those of the steps before it. -/
  paced : ∀ earlier later x, slices.flatMap (·.steps) = earlier ++ .asked x :: later →
    ∃ u, (renderUrls settings fileKey nodeIds format scale).outcome
        (before.cutOff (exchangesIn earlier).length) = (.error unanswered, u) ∧
      u.waits = before.waits ++ waitsIn earlier
  keepsTo : ∀ slice ∈ slices, slice.KeepsTo settings ("/images/" ++ fileKey) format scale
  goesOn : ∀ slice ∈ slices.dropLast, slice.isLimited = false
  /-- Ids are left out only where a slice has met limits only. -/
  cut : ∃ unasked, AreSlices (max 1 settings.imageBatchSize).toNat nodeIds
      (slices.map (·.nodeIds) ++ unasked) ∧
    (unasked ≠ [] → slices.getLast?.any (·.isLimited) = true)
  union : (∀ slice ∈ slices, slice.isLimited = false → slice.last.HoldsImages) →
    ∃ table, urls = .ofTable table ∧ HoldsLast (slices.flatMap (·.images)) table

/-- Whenever the service is asked for addresses and they come, it has been asked slice after slice,
with waits and repetitions as the limits demand, and the addresses are those of all answers. -/
theorem renderUrls_protocol {settings : Settings} {fileKey : String} {nodeIds : List String}
    {format : String} {scale : Int} {before after : Session} {urls : RenderUrls}
    (hretries : 0 ≤ settings.imageMaxRetries)
    (h : (renderUrls settings fileKey nodeIds format scale).outcome before = (.ok urls, after)) :
    ∃ slices, Protocol settings fileKey nodeIds format scale before after slices urls := by
  obtain ⟨steps, htakes, hattempts⟩ := exists_steps_of_renderUrls h
  obtain ⟨slices, rfl, hslices⟩ := hattempts.exists_inSlices hretries
  obtain ⟨unasked, hbatches, hstopped⟩ := hslices.batches_eq
  obtain ⟨_, rfl⟩ := hattempts.askingEnds
  have hlength : 0 < (max 1 settings.imageBatchSize).toNat := by omega
  have hcut := areSlices_slices hlength nodeIds
  refine ⟨slices, htakes, fun earlier later x hsteps ↦ hattempts.outcome_cutOff htakes hsteps,
    hslices.keepsTo, hslices.goesOn, ⟨unasked, ?_, hstopped⟩, fun hholds ↦ ?_⟩
  · rw [← hbatches]
    exact hcut
  · exact exists_gathered_flatMap hslices.keepsTo hholds holdsLast_nil

/-- Settings with batches of two nodes. -/
def inPairs : Settings := { withToken with imageBatchSize := 2 }

/-- A session in which two limits are met before the first of two answers. -/
def rushHour : Session where
  replies := [.response { status := 429 },
    .response { status := 429, headers := [("Retry-After", "3")] },
    .response { body := "\x7b\"images\":\x7b\"1:1\":\"https://img/sun\",\"1:2\":null\x7d\x7d" },
    .response { body := "\x7b\"images\":\x7b\"1:3\":\"https://img/star\"\x7d\x7d" }]

theorem renderUrls_protocol_rushHour : ∃ urls after slices,
    (renderUrls inPairs "Ab1" ["1:1", "1:2", "1:3"] "svg" 1).outcome rushHour = (.ok urls, after) ∧
      Protocol inPairs "Ab1" ["1:1", "1:2", "1:3"] "svg" 1 rushHour after slices urls ∧
      waitsIn (slices.flatMap (·.steps)) = [2, 3] := by
  have hcheck : ((renderUrls inPairs "Ab1" ["1:1", "1:2", "1:3"] "svg" 1).outcome
      rushHour).1.toOption.isSome = true := by decide +kernel
  have hwaits : ((renderUrls inPairs "Ab1" ["1:1", "1:2", "1:3"] "svg" 1).outcome
      rushHour).2.waits = [2, 3] := by decide +kernel
  cases hrun : (renderUrls inPairs "Ab1" ["1:1", "1:2", "1:3"] "svg" 1).outcome rushHour with
  | mk result after =>
      rw [hrun] at hcheck hwaits
      cases result with
      | error fault => exact Bool.noConfusion hcheck
      | ok urls =>
          obtain ⟨slices, hprotocol⟩ := renderUrls_protocol (by decide) hrun
          refine ⟨urls, after, slices, rfl, hprotocol, ?_⟩
          rw [← hwaits, hprotocol.takes.waits_eq]
          rfl

end DesignToWeb.Service
