/-!
# Texts made of a class of characters

A text is made of a class of characters when every character of it is in the
class.  What is put together from such texts is made of the class too.
-/

namespace DesignToWeb.Text

def MadeOf (p : Char → Bool) (s : String) : Prop := ∀ c ∈ s.toList, p c = true

instance (p : Char → Bool) (s : String) : Decidable (MadeOf p s) :=
  decidable_of_iff (s.toList.all p = true) List.all_eq_true

namespace MadeOf

variable {p q : Char → Bool} {s t : String}

theorem mono (hs : MadeOf p s) (h : ∀ c, p c = true → q c = true) : MadeOf q s :=
  fun c hc ↦ h c (hs c hc)

theorem notMem (hs : MadeOf p s) {c : Char} (hc : p c = false) : c ∉ s.toList := by
  intro hmem
  have hp := hs c hmem
  rw [hc] at hp
  exact Bool.noConfusion hp

theorem append (hs : MadeOf p s) (ht : MadeOf p t) : MadeOf p (s ++ t) := by
  intro c hc
  rw [String.toList_append, List.mem_append] at hc
  exact hc.elim (hs c) (ht c)

theorem ofList {cs : List Char} (h : ∀ c ∈ cs, p c = true) : MadeOf p (String.ofList cs) := by
  intro c hc
  rw [String.toList_ofList] at hc
  exact h c hc

theorem join {l : List String} (h : ∀ s ∈ l, MadeOf p s) : MadeOf p (String.join l) := by
  intro c hc
  rw [String.toList_join, List.mem_flatMap] at hc
  obtain ⟨s, hs, hcs⟩ := hc
  exact h s hs c hcs

theorem intercalate {l : List String} (hs : MadeOf p s) (h : ∀ t ∈ l, MadeOf p t) :
    MadeOf p (s.intercalate l) := by
  induction l with
  | nil => exact fun c hc ↦ by simp [String.intercalate_nil] at hc
  | cons t l ih =>
      cases l with
      | nil =>
          rw [String.intercalate_singleton]
          exact h t (List.mem_singleton_self t)
      | cons u l =>
          rw [String.intercalate_cons_cons]
          refine ((h t List.mem_cons_self).append hs).append ?_
          exact ih fun v hv ↦ h v (List.mem_cons_of_mem t hv)

theorem toString_nat (hdigit : ∀ c : Char, c.isDigit = true → p c = true) (n : Nat) :
    MadeOf p (toString n) := by
  intro c hc
  have hdigits : (toString n).toList = Nat.toDigits 10 n := Nat.toList_repr
  rw [hdigits] at hc
  exact hdigit c (Nat.isDigit_of_mem_toDigits (by decide) (by decide) hc)

theorem toString_int (hdigit : ∀ c : Char, c.isDigit = true → p c = true) (hminus : p '-' = true)
    (n : Int) : MadeOf p (toString n) := by
  cases n with
  | ofNat n => exact toString_nat hdigit n
  | negSucc n =>
      have htext : toString (Int.negSucc n) = "-" ++ toString (n + 1) := rfl
      rw [htext]
      refine append (fun c hc ↦ ?_) (toString_nat hdigit (n + 1))
      have hc : c = '-' := by simpa using hc
      rw [hc]
      exact hminus

end MadeOf
end DesignToWeb.Text
