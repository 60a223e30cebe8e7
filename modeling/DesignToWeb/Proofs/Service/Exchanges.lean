import DesignToWeb.Proofs.Service.Action

/-!
# Exchanges

Sessions only ever send more requests, and take the replies in their order.  So
what passed between two sessions of a run can be told from the two: the requests
that the later one has sent beyond the earlier one, each with the reply to it.
-/

namespace DesignToWeb.Service

abbrev Exchange := Request × Reply

namespace Session

def nextReply (s : Session) : Reply := s.replies.headD (.failure "script exhausted")

def sent (s : Session) (request : Request) : Session :=
  { s with replies := s.replies.tail, requests := s.requests ++ [request] }

end Session

/-- Requests with the replies to them.  Without a reply the service cannot be reached. -/
def answered : List Request → List Reply → List Exchange
  | [], _ => []
  | request :: rest, replies =>
    (request, replies.headD (.failure "script exhausted")) :: answered rest replies.tail

/-- What passed between two sessions. -/
def exchanges (before after : Session) : List Exchange :=
  answered (after.requests.drop before.requests.length) before.replies

theorem answered_append (requests more : List Request) (replies : List Reply) :
    answered (requests ++ more) replies =
      answered requests replies ++ answered more (replies.drop requests.length) := by
  induction requests generalizing replies with
  | nil => rfl
  | cons request rest ih =>
      rw [List.cons_append, answered, ih, answered, List.cons_append, List.length_cons,
        List.drop_tail, Nat.add_comm]

/-! ## Sessions that follow one another -/

/-- Whether a session comes after another with these exchanges between the two, whatever else has
changed. -/
structure Follows (before : Session) (xs : List Exchange) (after : Session) : Prop where
  requests_eq : after.requests = before.requests ++ xs.map Prod.fst
  replies_eq : after.replies = before.replies.drop xs.length
  answered_eq : answered (xs.map Prod.fst) before.replies = xs

namespace Follows

variable {s t u : Session} {xs ys : List Exchange}

theorem of_same (hrequests : t.requests = s.requests) (hreplies : t.replies = s.replies) :
    Follows s [] t where
  requests_eq := by rw [hrequests, List.map_nil, List.append_nil]
  replies_eq := hreplies
  answered_eq := rfl

theorem refl (s : Session) : Follows s [] s := of_same rfl rfl

theorem sent (s : Session) (request : Request) :
    Follows s [(request, s.nextReply)] (s.sent request) where
  requests_eq := rfl
  replies_eq := List.drop_one.symm
  answered_eq := rfl

theorem trans (h : Follows s xs t) (h' : Follows t ys u) : Follows s (xs ++ ys) u where
  requests_eq := by
    rw [h'.requests_eq, h.requests_eq, List.map_append, List.append_assoc]
  replies_eq := by
    rw [h'.replies_eq, h.replies_eq, List.drop_drop, List.length_append]
  answered_eq := by
    have hrest := h'.answered_eq
    rw [h.replies_eq] at hrest
    rw [List.map_append, answered_append, h.answered_eq, List.length_map, hrest]

theorem exchanges_eq (h : Follows s xs t) : exchanges s t = xs := by
  rw [exchanges, h.requests_eq, List.drop_left, h.answered_eq]

theorem exchanges_append (h : Follows s xs t) (h' : Follows t ys u) :
    exchanges s u = exchanges s t ++ exchanges t u := by
  rw [(h.trans h').exchanges_eq, h.exchanges_eq, h'.exchanges_eq]

end Follows

/-! ## Requests -/

open Service.Action

theorem outcome_send (request : Request) (s : Session) :
    (send request).outcome s = (.ok s.nextReply, s.sent request) := rfl

def Reply.taken : Reply → Except Fault Response
  | .failure reason => .error (.serviceFailure 502 reason)
  | .response r => .ok r

def askRequest (settings : Settings) (path : String) (params : Option (List (String × Json)))
    (headers : List (String × String)) : Request where
  url := .str (settings.apiBase ++ path)
  headers := some headers
  params
  timeout := settings.requestTimeout

/-- Settings with a token, and as they are without an environment for the rest. -/
def withToken : Settings := { figmaToken := some "token" }

theorem outcome_ask (settings : Settings) (path : String) (params : Option (List (String × Json)))
    (s : Session) :
    (ask settings path params).outcome s =
      match tokenHeaders settings with
      | .error fault => (.error fault, s)
      | .ok headers => (s.nextReply.taken, s.sent (askRequest settings path params headers)) := by
  unfold ask
  rw [outcome_bind, outcome_ofExcept]
  cases tokenHeaders settings with
  | error fault => rfl
  | ok headers =>
      dsimp only
      rw [outcome_bind, outcome_send]
      dsimp only
      cases s.nextReply with
      | failure reason => rfl
      | response response => rfl

/-! ## How actions end -/

section Ends

variable {α β : Type}

/-- Whether an action only ever adds exchanges, and how it ends, in a value or in a fault, has to do
with them as told. -/
def Ends (a : Action α) (post : List Exchange → Except Fault α → Prop) : Prop :=
  ∀ s, ∃ xs, Follows s xs (a.outcome s).2 ∧ post xs (a.outcome s).1

namespace Ends

theorem mono {a : Action α} {post weaker : List Exchange → Except Fault α → Prop} (h : Ends a post)
    (hpost : ∀ xs result, post xs result → weaker xs result) : Ends a weaker := by
  intro s
  obtain ⟨xs, hfollows, hresult⟩ := h s
  exact ⟨xs, hfollows, hpost xs _ hresult⟩

theorem pure {post : List Exchange → Except Fault α → Prop} {x : α} (h : post [] (.ok x)) :
    Ends (pure x : Action α) post :=
  fun s ↦ ⟨[], .refl s, h⟩

theorem throw (fault : Fault) :
    Ends (throw fault : Action α) fun xs result ↦ xs = [] ∧ .error fault = result :=
  fun s ↦ ⟨[], .refl s, rfl, rfl⟩

theorem send (request : Request) :
    Ends (Action.send request) fun xs result ↦
      ∃ reply, xs = [(request, reply)] ∧ result = .ok reply :=
  fun s ↦ ⟨_, .sent s request, s.nextReply, rfl, rfl⟩

theorem bind {a : Action α} {f : α → Action β} {first : List Exchange → Except Fault α → Prop}
    {post : List Exchange → Except Fault β → Prop} (ha : Ends a first)
    (hok : ∀ xs x, first xs (.ok x) → Ends (f x) fun ys result ↦ post (xs ++ ys) result)
    (herror : ∀ xs fault, first xs (.error fault) → post xs (.error fault)) :
    Ends (a >>= f) post := by
  intro s
  obtain ⟨xs, hfirst, hx⟩ := ha s
  rw [outcome_bind]
  cases hrun : a.outcome s with
  | mk result t =>
      rw [hrun] at hfirst hx
      cases result with
      | error fault => exact ⟨xs, hfirst, herror xs fault hx⟩
      | ok x =>
          obtain ⟨ys, hsecond, hy⟩ := hok xs x hx t
          exact ⟨xs ++ ys, hfirst.trans hsecond, hy⟩

theorem tryCatch {a : Action α} {handle : Fault → Action α}
    {first post : List Exchange → Except Fault α → Prop} (ha : Ends a first)
    (hok : ∀ xs x, first xs (.ok x) → post xs (.ok x))
    (herror : ∀ xs fault, first xs (.error fault) →
      Ends (handle fault) fun ys result ↦ post (xs ++ ys) result) :
    Ends (tryCatch a handle) post := by
  intro s
  obtain ⟨xs, hfirst, hx⟩ := ha s
  rw [outcome_tryCatch]
  cases hrun : a.outcome s with
  | mk result t =>
      rw [hrun] at hfirst hx
      cases result with
      | ok x => exact ⟨xs, hfirst, hok xs x hx⟩
      | error fault =>
          obtain ⟨ys, hsecond, hy⟩ := herror xs fault hx t
          exact ⟨xs ++ ys, hfirst.trans hsecond, hy⟩

end Ends

end Ends

/-! ## What actions give -/

section Gives

variable {α : Type}

/-- Whether an action only ever adds exchanges, and its result, if it succeeds, has to do with them
as told. -/
def Gives (a : Action α) (post : List Exchange → α → Prop) : Prop :=
  ∀ s, ∃ xs, Follows s xs (a.outcome s).2 ∧ ∀ x, (a.outcome s).1 = .ok x → post xs x

theorem gives_iff_ends {a : Action α} {post : List Exchange → α → Prop} :
    Gives a post ↔ Ends a fun xs result ↦ ∀ x, result = .ok x → post xs x := Iff.rfl

namespace Gives

theorem mono {a : Action α} {post weaker : List Exchange → α → Prop} (h : Gives a post)
    (hpost : ∀ xs x, post xs x → weaker xs x) : Gives a weaker :=
  gives_iff_ends.mpr ((gives_iff_ends.mp h).mono fun xs _ hresult x hx ↦ hpost xs x (hresult x hx))

theorem pure (x : α) : Gives (pure x : Action α) fun xs y ↦ xs = [] ∧ y = x :=
  gives_iff_ends.mpr (Ends.pure fun _ h ↦ ⟨rfl, (Except.ok.inj h).symm⟩)

theorem throw (fault : Fault) (post : List Exchange → α → Prop) :
    Gives (throw fault : Action α) post := by
  refine gives_iff_ends.mpr ((Ends.throw fault).mono ?_)
  rintro xs _ ⟨_, rfl⟩ x hx
  exact nomatch hx

theorem tryCatch {a : Action α} {handle : Fault → Action α} {post : List Exchange → α → Prop}
    (ha : Gives a post) (hhandle : ∀ fault, Gives (handle fault) fun ys x ↦
      ∀ xs, post (xs ++ ys) x) : Gives (tryCatch a handle) post := by
  refine gives_iff_ends.mpr ((gives_iff_ends.mp ha).tryCatch (fun _ _ hx ↦ hx) fun xs fault _ ↦ ?_)
  exact (gives_iff_ends.mp (hhandle fault)).mono fun ys _ hresult x hx ↦ hresult x hx xs

end Gives

end Gives

end DesignToWeb.Service
