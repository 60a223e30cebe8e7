import DesignToWeb.Proofs.Design.Malformed
import DesignToWeb.Proofs.Service.Exporting

/-!
# What breaks an export

Whatever the service replies, an export comes to a result, but for two things: an
answer of a shape that is not expected, and a rate limit after which the delay cannot
be computed or waited.
-/

namespace DesignToWeb

/-- Whether a fault is about the shape of the addresses in an answer. -/
def Fault.isShape : Fault → Bool
  | compoundName _ | noList _ | pairNoSequence _ | pairLength _ _ => true
  | _ => false

namespace Service

theorem pair_isShape (index : Nat) (entry : Json) :
    FailsBy (·.isShape = true) (RenderUrls.pair index entry) := by
  have hkey (k : Json) : FailsBy (·.isShape = true) (RenderUrls.key k) := by
    cases k with
    | arr _ | obj _ => exact .error rfl
    | _ => exact .ok _
  rw [RenderUrls.pair.eq_def]
  split
  · exact .bind (hkey _) fun _ _ ↦ .pure _
  · exact .error rfl
  · split
    · exact .ok _
    · exact .error rfl
  · exact .ok _
  · exact .error rfl
  · exact .error rfl

theorem ofAnswer_isShape (images : Json) :
    FailsBy (·.isShape = true) (RenderUrls.ofAnswer images) := by
  rw [RenderUrls.ofAnswer.eq_def]
  split
  · exact .ok _
  · split
    · exact .ok _
    · exact .mapM fun entry _ ↦ pair_isShape _ _
    · exact .error rfl
    · exact .error rfl

variable {settings : Settings} {fileKey format : String} {scale : Int} {xs : List Exchange}
  {fault : Fault}

/-- Whether a reply to a request for addresses leaves an export without a result. -/
inductive Reply.Breaks (settings : Settings) : Reply → Fault → Prop
  | delay {r : Response} {attempt : Nat} {fault : Fault} (hstatus : r.status = 429)
      (hattempt : attempt ≤ settings.imageMaxRetries) (h : r.NoDelay settings attempt fault) :
      Breaks settings (.response r) fault
  | answer {r : Response} {fault : Fault} (hrefusal : r.isRefusal = false)
      (h : r.Unusable fault) : Breaks settings (.response r) fault

theorem serviceFailure_of_tokenHeaders (h : tokenHeaders settings = .error fault) :
    fault = .serviceFailure 401 "FIGMA_TOKEN not set" := by
  unfold tokenHeaders at h
  split at h
  · exact (Except.error.inj h).symm
  · split at h
    · exact (Except.error.inj h).symm
    · exact nomatch h

theorem breaks_of_failsWith {reply : Reply} (h : reply.FailsWith settings fault)
    (hfault : ∀ status reason, fault ≠ .serviceFailure status reason) :
    reply.Breaks settings fault := by
  cases h with
  | unreachable reason => exact absurd rfl (hfault _ _)
  | refused _ _ => exact absurd rfl (hfault _ _)
  | unusable hrefusal h => exact .answer hrefusal (unusable_of_answeredUrls h hfault)
  | delay hstatus hattempt h => exact .delay hstatus hattempt h

/-- What ends asking but is no failure of the service has come with the last reply. -/
theorem exists_breaks_of_stops (h : Stops settings fileKey format scale xs fault)
    (hfault : ∀ status reason, fault ≠ .serviceFailure status reason) :
    ∃ earlier last, xs = earlier ++ [last] ∧ WentOn settings fileKey format scale earlier ∧
      last.1.AsksRenders settings fileKey format scale ∧ last.2.Breaks settings fault := by
  cases h with
  | noToken _ htoken => exact absurd (serviceFailure_of_tokenHeaders htoken) (hfault _ _)
  | failed heq hearlier hlast h =>
      exact ⟨_, _, heq, hearlier, hlast, breaks_of_failsWith h hfault⟩

/-- Whether a reply to a request for addresses is no obstacle to an export: asking goes on, or the
service fails, which counts as no addresses. -/
def Reply.IsHandled (settings : Settings) (reply : Reply) : Prop :=
  reply.GoesOn ∨ ∃ status reason, reply.FailsWith settings (.serviceFailure status reason)

theorem isHandled_of_stops {status : Int} {reason : String}
    (h : Stops settings fileKey format scale xs (.serviceFailure status reason)) :
    ∀ x ∈ xs, x.2.IsHandled settings := by
  cases h with
  | noToken hxs _ => exact fun x hx ↦ Or.inl (hxs x hx).2
  | failed heq hearlier _ h =>
      rw [heq, List.forall_mem_append, List.forall_mem_singleton]
      exact ⟨fun x hx ↦ Or.inl (hearlier x hx).2, Or.inr ⟨status, reason, h⟩⟩

/-- An export that comes to a result was stopped by no reply of the service, and it returns renders
of nodes that were asked for only.  One that comes to none has left the store as it was, and the
last reply breaks it, an answer of another shape or a limit without a delay. -/
theorem export_returns_or_breaks (settings : Settings) (call : RenderCall) (s : Session) :
    (∀ images, (call.run settings s).1 = .ok images →
      (∀ image ∈ images, image.1 ∈ call.nodeIds) ∧
        ∀ x ∈ toService (exchanges s (call.run settings s).2), x.2.IsHandled settings) ∧
    ∀ fault, (call.run settings s).1 = .error fault →
      (call.run settings s).2.store = s.store ∧
        ∃ earlier last, exchanges s (call.run settings s).2 = earlier ++ [last] ∧
          WentOn settings call.fileKey call.format call.scale earlier ∧
          last.1.AsksRenders settings call.fileKey call.format call.scale ∧
          last.2.Breaks settings fault := by
  obtain ⟨xs, hfollows, hends⟩ := exportEnds_run settings call s
  rw [hfollows.exchanges_eq]
  constructor
  · intro images himages
    have hrun : call.run settings s = (.ok images, (call.run settings s).2) := Prod.ext himages rfl
    refine ⟨mem_of_mem_exportNodes hrun, fun x hx ↦ ?_⟩
    rw [himages] at hends
    cases hends with
    | stored hxs _ _ =>
        rw [hxs] at hx
        exact absurd hx List.not_mem_nil
    | downloaded hxs hasks hdownloads _ =>
        rw [hxs, toService_append, hdownloads.toService_eq, List.append_nil] at hx
        exact Or.inl (hasks x (List.mem_of_mem_filter hx)).2
    | givenUp hstops _ => exact isHandled_of_stops hstops x (List.mem_of_mem_filter hx)
  · intro fault hfault
    rw [hfault] at hends
    obtain _ | _ | _ | ⟨hstops, hother, hstore⟩ := hends
    exact ⟨hstore, exists_breaks_of_stops hstops hother⟩

def sunDrawing : RenderCall := ⟨"Ab1", ["1:1"], "svg", 1, .null⟩

/-- A session in which a page of a proxy comes instead of an answer of the service. -/
def behindProxy : Session where
  replies := [.response { body := "<html>Bad gateway</html>" }]

theorem run_sunDrawing_behindProxy : ∃ fault,
    (sunDrawing.run withToken behindProxy).1 = .error fault := by
  have hcheck : (sunDrawing.run withToken behindProxy).1.toOption.isNone = true := by
    decide +kernel
  cases hrun : (sunDrawing.run withToken behindProxy).1 with
  | error fault => exact ⟨fault, rfl⟩
  | ok images =>
      rw [hrun] at hcheck
      exact Bool.noConfusion hcheck

/-- The only reply breaks the export. -/
theorem export_returns_or_breaks_behindProxy : ∃ fault,
    (sunDrawing.run withToken behindProxy).1 = .error fault ∧
      ∃ earlier last, exchanges behindProxy (sunDrawing.run withToken behindProxy).2 =
        earlier ++ [last] ∧ last.2.Breaks withToken fault := by
  obtain ⟨fault, hfault⟩ := run_sunDrawing_behindProxy
  obtain ⟨_, earlier, last, hexchanges, _, _, hbreaks⟩ :=
    (export_returns_or_breaks withToken sunDrawing behindProxy).2 fault hfault
  exact ⟨fault, hfault, earlier, last, hexchanges, hbreaks⟩

/-- Not every export comes to a result. -/
theorem not_export_returns : ¬ ∀ (settings : Settings) (call : RenderCall) (s : Session),
    ∃ images, (call.run settings s).1 = .ok images := by
  intro h
  obtain ⟨images, himages⟩ := h withToken sunDrawing behindProxy
  obtain ⟨fault, hfault⟩ := run_sunDrawing_behindProxy
  rw [himages] at hfault
  exact nomatch hfault

end Service
end DesignToWeb
