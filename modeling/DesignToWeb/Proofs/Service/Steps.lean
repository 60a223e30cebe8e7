import DesignToWeb.Proofs.Service.Exchanges

/-!
# Steps

A session keeps its requests and its waits apart.  Steps are both in one sequence, so
that it can be said between which requests a wait stands.  The order shows when the
replies are cut off: the request that finds none is the last one, and the waits up to
then are those of the steps before it.
-/

namespace DesignToWeb.Service

open Service.Action

/-- A request with the reply to it, or a wait. -/
inductive Step where
  | asked (x : Exchange)
  | waited (seconds : Binary64)

namespace Step

def exchange? : Step → Option Exchange
  | asked x => some x
  | waited _ => none

def wait? : Step → Option Binary64
  | asked _ => none
  | waited seconds => some seconds

end Step

def exchangesIn (steps : List Step) : List Exchange := steps.filterMap Step.exchange?

def waitsIn (steps : List Step) : List Binary64 := steps.filterMap Step.wait?

theorem exchangesIn_append (steps more : List Step) :
    exchangesIn (steps ++ more) = exchangesIn steps ++ exchangesIn more :=
  List.filterMap_append

theorem waitsIn_append (steps more : List Step) :
    waitsIn (steps ++ more) = waitsIn steps ++ waitsIn more :=
  List.filterMap_append

/-- What is met where no reply is left. -/
def noReply : Reply := .failure "script exhausted"

/-- The fault with which asking ends where no reply is left. -/
def unanswered : Fault := .serviceFailure 502 "script exhausted"

namespace Session

def waited (s : Session) (seconds : Binary64) : Session :=
  { s with waits := s.waits ++ [seconds] }

/-- The session with so many of its replies only. -/
def cutOff (s : Session) (count : Nat) : Session := { s with replies := s.replies.take count }

theorem cutOff_sent (s : Session) (request : Request) (count : Nat) :
    (s.cutOff (count + 1)).sent request = (s.sent request).cutOff count := by
  have htail : (s.replies.take (count + 1)).tail = s.replies.tail.take count := by
    cases s.replies with
    | nil => exact List.take_nil.symm
    | cons reply rest => rfl
  exact congrArg (fun replies ↦ { s with replies, requests := s.requests ++ [request] }) htail

theorem nextReply_cutOff_succ (s : Session) (count : Nat) :
    (s.cutOff (count + 1)).nextReply = s.nextReply := by
  unfold cutOff nextReply
  cases s.replies <;> rfl

theorem nextReply_cutOff_zero (s : Session) : (s.cutOff 0).nextReply = noReply := rfl

end Session

/-! ## Sessions that follow by steps -/

/-- Whether a session comes after another by these steps, with nothing else changed. -/
inductive Takes : Session → List Step → Session → Prop
  | refl (s : Session) : Takes s [] s
  | asked {s t : Session} {steps : List Step} (request : Request)
      (h : Takes (s.sent request) steps t) :
      Takes s (.asked (request, s.nextReply) :: steps) t
  | waited {s t : Session} {steps : List Step} (seconds : Binary64)
      (h : Takes (s.waited seconds) steps t) : Takes s (.waited seconds :: steps) t

namespace Takes

variable {s t u : Session} {steps more : List Step}

theorem trans (h : Takes s steps t) (h' : Takes t more u) : Takes s (steps ++ more) u := by
  induction h with
  | refl _ => exact h'
  | asked request _ ih => exact .asked request (ih h')
  | waited seconds _ ih => exact .waited seconds (ih h')

theorem of_asked {x : Exchange} (h : Takes s (.asked x :: steps) t) :
    s.nextReply = x.2 ∧ Takes (s.sent x.1) steps t := by
  cases h with
  | asked request h => exact ⟨rfl, h⟩

theorem of_waited {seconds : Binary64} (h : Takes s (.waited seconds :: steps) t) :
    Takes (s.waited seconds) steps t := by
  cases h
  assumption

theorem exists_of_append (h : Takes s (steps ++ more) u) :
    ∃ t, Takes s steps t ∧ Takes t more u := by
  induction steps generalizing s with
  | nil => exact ⟨s, .refl s, h⟩
  | cons step steps ih =>
      cases h with
      | asked request h =>
          obtain ⟨t, hfirst, hmore⟩ := ih h
          exact ⟨t, .asked request hfirst, hmore⟩
      | waited seconds h =>
          obtain ⟨t, hfirst, hmore⟩ := ih h
          exact ⟨t, .waited seconds hfirst, hmore⟩

theorem follows (h : Takes s steps t) : Follows s (exchangesIn steps) t := by
  induction h with
  | refl s => exact .refl s
  | asked request _ ih => exact (Follows.sent _ request).trans ih
  | @waited s _ _ seconds _ ih =>
      have hwaited : Follows s [] (s.waited seconds) := .of_same rfl rfl
      exact hwaited.trans ih

theorem waits_eq (h : Takes s steps t) : t.waits = s.waits ++ waitsIn steps := by
  induction h with
  | refl s => exact (List.append_nil _).symm
  | asked request _ ih => exact ih
  | waited seconds _ ih =>
      rw [ih]
      exact List.append_assoc _ _ _

/-- With the replies to the requests before one, a session takes the same steps up to that request,
which finds no reply. -/
theorem exists_cutOff {earlier later : List Step} {x : Exchange}
    (h : Takes s (earlier ++ .asked x :: later) t) :
    ∃ u, Takes (s.cutOff (exchangesIn earlier).length) (earlier ++ [.asked (x.1, noReply)]) u := by
  induction earlier generalizing s with
  | nil =>
      have hasked : Takes (s.cutOff 0) [.asked (x.1, (s.cutOff 0).nextReply)] _ :=
        .asked x.1 (.refl _)
      rw [Session.nextReply_cutOff_zero] at hasked
      exact ⟨_, hasked⟩
  | cons step earlier ih =>
      cases h with
      | asked request h =>
          obtain ⟨u, hrest⟩ := ih h
          rw [← Session.cutOff_sent] at hrest
          have hasked := Takes.asked request hrest
          rw [Session.nextReply_cutOff_succ] at hasked
          exact ⟨u, hasked⟩
      | waited seconds h =>
          obtain ⟨u, hrest⟩ := ih h
          exact ⟨u, .waited seconds hrest⟩

end Takes

/-! ## Waits -/

/-- Why some seconds cannot be waited. -/
def waitFault? (machine : Machine) (seconds : Binary64) : Option Fault :=
  if seconds.isNaN then some .nanDelay
  else if !machine.counts seconds then some (.obstacle .uncountedDelay)
  else if seconds.lt 0 then some .negativeDelay
  else none

theorem outcome_wait (machine : Machine) (seconds : Binary64) (s : Session) :
    (wait machine seconds).outcome s =
      match waitFault? machine seconds with
      | some fault => (.error fault, s)
      | none => (.ok (), s.waited seconds) := by
  unfold wait waitFault?
  by_cases hnan : seconds.isNaN = true
  · rw [if_pos hnan, if_pos hnan]
    rfl
  rw [if_neg hnan, if_neg hnan]
  by_cases huncounted : (!machine.counts seconds) = true
  · rw [if_pos huncounted, if_pos huncounted]
    rfl
  · rw [if_neg huncounted, if_neg huncounted]
    by_cases hnegative : seconds.lt 0 = true
    · rw [if_pos hnegative, if_pos hnegative]
      rfl
    · rw [if_neg hnegative, if_neg hnegative]
      rfl

end DesignToWeb.Service
