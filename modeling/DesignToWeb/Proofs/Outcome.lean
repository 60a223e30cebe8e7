import Mathlib.Data.List.Forall2
import DesignToWeb.Fault

/-!
# Computations that succeed

A computation that may fail succeeds exactly when each of its steps does, and what
it then comes to has the properties that its steps ensure.
-/

namespace DesignToWeb.Outcome

variable {ε α β : Type}

theorem pure_eq_ok {a b : α} : (pure a : Except ε α) = .ok b ↔ a = b := by
  constructor
  · intro h
    exact Except.ok.inj h
  · rintro rfl
    rfl

theorem bind_eq_ok {x : Except ε α} {f : α → Except ε β} {b : β} :
    (x >>= f) = .ok b ↔ ∃ a, x = .ok a ∧ f a = .ok b := by
  cases x with
  | error e =>
      constructor
      · intro h
        exact nomatch (h : Except.error e = .ok b)
      · rintro ⟨a, ha, _⟩
        exact nomatch ha
  | ok a =>
      constructor
      · intro h
        exact ⟨a, rfl, h⟩
      · rintro ⟨a', ha, h⟩
        rw [← Except.ok.inj ha] at h
        exact h

theorem map_eq_ok {x : Except ε α} {f : α → β} {b : β} :
    f <$> x = .ok b ↔ ∃ a, x = .ok a ∧ f a = b := by
  rw [map_eq_pure_bind, bind_eq_ok]
  simp only [pure_eq_ok]

theorem bind_eq_error {x : Except ε α} {f : α → Except ε β} {e : ε} :
    (x >>= f) = .error e ↔ x = .error e ∨ ∃ a, x = .ok a ∧ f a = .error e := by
  cases x with
  | error own =>
      constructor
      · intro h
        exact Or.inl (congrArg Except.error (Except.error.inj h))
      · rintro (h | ⟨a, ha, _⟩)
        · exact congrArg Except.error (Except.error.inj h)
        · cases ha
  | ok a =>
      constructor
      · intro h
        exact Or.inr ⟨a, rfl, h⟩
      · rintro (h | ⟨a', ha, h⟩)
        · cases h
        · rw [← Except.ok.inj ha] at h
          exact h

def isOkWith [BEq α] (x : Except ε α) (a : α) : Bool :=
  match x with
  | .ok b => b == a
  | .error _ => false

theorem eq_ok_of_isOkWith [BEq α] [LawfulBEq α] {x : Except ε α} {a : α}
    (h : isOkWith x a = true) : x = .ok a := by
  cases x with
  | ok b => exact congrArg Except.ok (eq_of_beq h)
  | error e => exact Bool.noConfusion h

theorem exists_ok_of_any {x : Except ε α} {p : α → Bool} (h : x.toOption.any p = true) :
    ∃ a, x = .ok a ∧ p a = true := by
  cases x with
  | error e => exact Bool.noConfusion h
  | ok a => exact ⟨a, rfl, h⟩

/-- A walk over a list succeeds when every visit does, and gives what the visits gave. -/
theorem mapM_eq_ok {f : α → Except ε β} {as : List α} {bs : List β} :
    as.mapM f = .ok bs ↔ List.Forall₂ (fun a b ↦ f a = .ok b) as bs := by
  induction as generalizing bs with
  | nil =>
      rw [List.mapM_nil, pure_eq_ok, List.forall₂_nil_left_iff]
      exact eq_comm
  | cons a as ih =>
      rw [List.mapM_cons, bind_eq_ok, List.forall₂_cons_left_iff]
      constructor
      · rintro ⟨b, hb, hrest⟩
        obtain ⟨rest, has, hcons⟩ := bind_eq_ok.mp hrest
        exact ⟨b, rest, hb, ih.mp has, (pure_eq_ok.mp hcons).symm⟩
      · rintro ⟨b, rest, hb, has, rfl⟩
        exact ⟨b, hb, bind_eq_ok.mpr ⟨rest, ih.mpr has, rfl⟩⟩

theorem exists_of_mem_right {f : α → Except ε β} {as : List α} {bs : List β}
    (h : as.mapM f = .ok bs) {b : β} (hb : b ∈ bs) : ∃ a ∈ as, f a = .ok b := by
  have hall := mapM_eq_ok.mp h
  clear h
  induction hall with
  | nil => exact absurd hb List.not_mem_nil
  | @cons a b' as bs hvisit _ ih =>
      rcases List.mem_cons.mp hb with rfl | hb
      · exact ⟨a, List.mem_cons_self, hvisit⟩
      · obtain ⟨a', ha', hvisit'⟩ := ih hb
        exact ⟨a', List.mem_cons_of_mem a ha', hvisit'⟩

theorem exists_of_mem_left {f : α → Except ε β} {as : List α} {bs : List β}
    (h : as.mapM f = .ok bs) {a : α} (ha : a ∈ as) : ∃ b ∈ bs, f a = .ok b := by
  have hall := mapM_eq_ok.mp h
  clear h
  induction hall with
  | nil => exact absurd ha List.not_mem_nil
  | @cons a' b as bs hvisit _ ih =>
      rcases List.mem_cons.mp ha with rfl | ha
      · exact ⟨b, List.mem_cons_self, hvisit⟩
      · obtain ⟨b', hb', hvisit'⟩ := ih ha
        exact ⟨b', List.mem_cons_of_mem b hb', hvisit'⟩

/-! ## Computations that always succeed -/

/-- Whether a computation comes to a value. -/
def Returns (x : Except ε α) : Prop := ∃ a, x = .ok a

namespace Returns

theorem ok (a : α) : Returns (.ok a : Except ε α) := ⟨a, rfl⟩

theorem pure (a : α) : Returns (Pure.pure a : Except ε α) := ⟨a, rfl⟩

theorem bind {x : Except ε α} {f : α → Except ε β} (hx : Returns x) (hf : ∀ a, Returns (f a)) :
    Returns (x >>= f) := by
  obtain ⟨a, rfl⟩ := hx
  exact hf a

theorem mapM {f : α → Except ε β} {as : List α} (h : ∀ a ∈ as, Returns (f a)) :
    Returns (as.mapM f) := by
  induction as with
  | nil => exact pure []
  | cons a as ih =>
      rw [List.mapM_cons]
      refine bind (h a List.mem_cons_self) fun _ ↦ ?_
      exact bind (ih fun b hb ↦ h b (List.mem_cons_of_mem a hb)) fun _ ↦ pure _

end Returns

/-! ## What successes have in common -/

/-- Whether whatever a computation comes to has a property. -/
def Ensures (P : α → Prop) (x : Except ε α) : Prop := ∀ a, x = .ok a → P a

namespace Ensures

variable {P : α → Prop} {Q : β → Prop} {x : Except ε α}

theorem ok {a : α} (h : P a) : Ensures P (.ok a : Except ε α) := by
  intro b hb
  rw [← Except.ok.inj hb]
  exact h

theorem pure {a : α} (h : P a) : Ensures P (Pure.pure a : Except ε α) := ok h

theorem error (e : ε) : Ensures P (.error e : Except ε α) := fun _ h ↦ nomatch h

theorem bind {f : α → Except ε β} (hx : Ensures P x) (hf : ∀ a, P a → Ensures Q (f a)) :
    Ensures Q (x >>= f) := by
  intro b hb
  obtain ⟨a, ha, hb⟩ := bind_eq_ok.mp hb
  exact hf a (hx a ha) b hb

/-- Nothing has to be known of a step that what comes after it does not depend on. -/
theorem after {f : α → Except ε β} (hf : ∀ a, Ensures Q (f a)) : Ensures Q (x >>= f) :=
  bind (P := fun _ ↦ True) (fun _ _ ↦ trivial) fun a _ ↦ hf a

theorem map {f : α → β} (hx : Ensures P x) (hf : ∀ a, P a → Q (f a)) : Ensures Q (f <$> x) := by
  cases x with
  | error e => exact error e
  | ok a => exact ok (hf a (hx a rfl))

theorem mapM {f : α → Except ε β} {as : List α} (h : ∀ a ∈ as, Ensures Q (f a)) :
    Ensures (fun bs ↦ ∀ b ∈ bs, Q b) (as.mapM f) := by
  intro bs hbs b hb
  obtain ⟨a, ha, heq⟩ := exists_of_mem_right hbs hb
  exact h a ha b heq

end Ensures

end DesignToWeb.Outcome
