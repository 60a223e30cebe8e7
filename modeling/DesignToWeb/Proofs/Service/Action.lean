import DesignToWeb.Service.Session

/-!
# Running actions

An action takes a session to an outcome and the session that it leaves behind.
A sequence of actions that succeeds is taken apart step by step.
-/

namespace DesignToWeb.Service.Action

variable {α β γ : Type}

/-- How an action ends in a session, and what it leaves behind. -/
def outcome (a : Action α) (s : Session) : Except Fault α × Session := (ExceptT.run a).run s

theorem outcome_ofExcept (x : Except Fault α) (s : Session) : (ofExcept x).outcome s = (x, s) := rfl

theorem outcome_store (s : Session) : store.outcome s = (.ok s.store, s) := rfl

theorem outcome_writeFile (machine : Machine) (path : Path) (content : Files → Content)
    (s : Session) :
    (writeFile machine path content).outcome s =
      match machine.opening? path with
      | none => (.ok (), { s with files := s.files.write path (content s.files) })
      | some reason => (.error (.obstacle (.refusedChange reason)), s) := by
  unfold writeFile
  cases machine.opening? path with
  | none => rfl
  | some reason => rfl

theorem outcome_bind (a : Action α) (f : α → Action β) (s : Session) :
    (a >>= f).outcome s =
      match a.outcome s with
      | (.ok x, t) => (f x).outcome t
      | (.error fault, t) => (.error fault, t) := by
  unfold outcome ExceptT.run StateT.run
  simp only [bind, ExceptT.bind, ExceptT.mk, StateT.bind, ExceptT.bindCont]
  cases a s with
  | mk result t =>
      cases result with
      | ok x => rfl
      | error fault => rfl

theorem outcome_tryCatch (a : Action α) (handle : Fault → Action α) (s : Session) :
    (tryCatch a handle).outcome s =
      match a.outcome s with
      | (.ok x, t) => (.ok x, t)
      | (.error fault, t) => (handle fault).outcome t := by
  unfold outcome ExceptT.run StateT.run
  simp only [tryCatch, tryCatchThe, MonadExceptOf.tryCatch, ExceptT.tryCatch, ExceptT.mk, bind,
    StateT.bind]
  cases a s with
  | mk result t =>
      cases result with
      | ok x => rfl
      | error fault => rfl

/-- A sequence of actions ends where one of them fails, or with the last one. -/
theorem bind_eq {a : Action α} {f : α → Action β} {s u : Session} {result : Except Fault β} :
    (a >>= f).outcome s = (result, u) ↔
      (∃ fault, a.outcome s = (.error fault, u) ∧ result = .error fault) ∨
        ∃ x t, a.outcome s = (.ok x, t) ∧ (f x).outcome t = (result, u) := by
  rw [outcome_bind]
  cases a.outcome s with
  | mk own t =>
      cases own with
      | ok x =>
          constructor
          · intro h
            exact Or.inr ⟨x, t, rfl, h⟩
          · rintro (⟨fault, hrun, _⟩ | ⟨x', t', hrun, h⟩)
            · exact nomatch (Prod.mk.inj hrun).1
            · obtain ⟨hx, ht⟩ := Prod.mk.inj hrun
              rw [Except.ok.inj hx, ht]
              exact h
      | error fault =>
          constructor
          · intro h
            obtain ⟨rfl, rfl⟩ := Prod.mk.inj h
            exact Or.inl ⟨fault, rfl, rfl⟩
          · rintro (⟨own, hrun, rfl⟩ | ⟨x', t', hrun, _⟩)
            · obtain ⟨hfault, rfl⟩ := Prod.mk.inj hrun
              rw [Except.error.inj hfault]
            · exact nomatch (Prod.mk.inj hrun).1

theorem bind_eq_ok {a : Action α} {f : α → Action β} {s u : Session} {y : β} :
    (a >>= f).outcome s = (.ok y, u) ↔
      ∃ x t, a.outcome s = (.ok x, t) ∧ (f x).outcome t = (.ok y, u) := by
  rw [bind_eq]
  exact or_iff_right fun ⟨_, _, h⟩ ↦ nomatch h

theorem bind_eq_error {a : Action α} {f : α → Action β} {s u : Session} {fault : Fault} :
    (a >>= f).outcome s = (.error fault, u) ↔ a.outcome s = (.error fault, u) ∨
      ∃ x t, a.outcome s = (.ok x, t) ∧ (f x).outcome t = (.error fault, u) := by
  rw [bind_eq]
  refine or_congr_left ⟨?_, fun h ↦ ⟨fault, h, rfl⟩⟩
  rintro ⟨own, h, hfault⟩
  rwa [Except.error.inj hfault]

theorem ofExcept_eq_ok {x : Except Fault α} {s t : Session} {y : α} :
    (ofExcept x).outcome s = (.ok y, t) ↔ x = .ok y ∧ s = t := by
  rw [outcome_ofExcept, Prod.mk.injEq]

theorem ofExcept_eq_error {x : Except Fault α} {s t : Session} {fault : Fault} :
    (ofExcept x).outcome s = (.error fault, t) ↔ x = .error fault ∧ s = t := by
  rw [outcome_ofExcept, Prod.mk.injEq]

/-! ## What actions leave alone -/

/-- Whether an action leaves a part of the session as it was, however it ends. -/
def Keeps (part : Session → γ) (a : Action α) : Prop := ∀ s, part (a.outcome s).2 = part s

namespace Keeps

variable {part : Session → γ}

theorem eq_of_outcome {a : Action α} (ha : Keeps part a) {s t : Session} {result : Except Fault α}
    (h : a.outcome s = (result, t)) : part t = part s := by
  rw [← ha s, h]

theorem pure (x : α) : Keeps part (pure x : Action α) := fun _ ↦ rfl

theorem ofExcept (x : Except Fault α) : Keeps part (ofExcept x) := fun _ ↦ rfl

theorem throw (fault : Fault) : Keeps part (throw fault : Action α) := fun _ ↦ rfl

theorem store : Keeps part store := fun _ ↦ rfl

theorem bind {a : Action α} {f : α → Action β} (ha : Keeps part a) (hf : ∀ x, Keeps part (f x)) :
    Keeps part (a >>= f) := by
  intro s
  have has := ha s
  rw [outcome_bind]
  cases hrun : a.outcome s with
  | mk result t =>
      rw [hrun] at has
      cases result with
      | ok x => exact (hf x t).trans has
      | error fault => exact has

theorem tryCatch {a : Action α} {handle : Fault → Action α} (ha : Keeps part a)
    (hhandle : ∀ fault, Keeps part (handle fault)) : Keeps part (tryCatch a handle) := by
  intro s
  have has := ha s
  rw [outcome_tryCatch]
  cases hrun : a.outcome s with
  | mk result t =>
      rw [hrun] at has
      cases result with
      | ok x => exact has
      | error fault => exact (hhandle fault t).trans has

end Keeps

end DesignToWeb.Service.Action
