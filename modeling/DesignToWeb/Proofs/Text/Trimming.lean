import DesignToWeb.Text.Character

/-!
# Texts without the blanks around them

Trimming leaves a part of a text that neither begins nor ends with a blank, and takes
nothing but blanks away.  No other part of the text is like that, so blanks that are
put around a text do not change what is left of it.
-/

namespace DesignToWeb.Text

variable {blank : Char → Bool} {text cs : List Char}

/-- Whether characters are those of a text without the blanks around it. -/
structure IsTrimOf (blank : Char → Bool) (text cs : List Char) : Prop where
  around : ∃ before after, (∀ c ∈ before, blank c = true) ∧ (∀ c ∈ after, blank c = true) ∧
    text = before ++ cs ++ after
  head : ∀ c ∈ cs.head?, blank c = false
  last : ∀ c ∈ cs.getLast?, blank c = false

theorem dropWhile_of_head (h : ∀ c ∈ cs.head?, blank c = false) : cs.dropWhile blank = cs := by
  cases cs with
  | nil => rfl
  | cons c rest => exact List.dropWhile_cons_of_neg (Bool.eq_false_iff.mp (h c rfl))

theorem head_dropWhile (blank : Char → Bool) (cs : List Char) :
    ∀ c ∈ (cs.dropWhile blank).head?, blank c = false := by
  intro c hc
  have hhead := List.head?_dropWhile_not blank cs
  rw [hc] at hhead
  exact hhead

theorem dropWhile_all (h : ∀ c ∈ cs, blank c = true) : cs.dropWhile blank = [] := by
  rw [← List.append_nil cs, List.dropWhile_append_of_pos h]
  rfl

/-- No other part of a text is without blanks around it. -/
theorem IsTrimOf.trimWhile_eq (h : IsTrimOf blank text cs) : trimWhile blank text = cs := by
  obtain ⟨before, after, hbefore, hafter, rfl⟩ := h.around
  rw [trimWhile, List.append_assoc, List.dropWhile_append_of_pos hbefore]
  cases cs with
  | nil => rw [List.nil_append, dropWhile_all hafter]; rfl
  | cons c rest =>
      have hfront : ((c :: rest) ++ after).dropWhile blank = (c :: rest) ++ after :=
        dropWhile_of_head h.head
      have hback : (c :: rest).reverse.dropWhile blank = (c :: rest).reverse := by
        apply dropWhile_of_head
        rw [List.head?_reverse]
        exact h.last
      have hblanks : ∀ c ∈ after.reverse, blank c = true :=
        fun c hc ↦ hafter c (List.mem_reverse.mp hc)
      rw [hfront, List.reverse_append, List.dropWhile_append_of_pos hblanks, hback,
        List.reverse_reverse]

/-- What is left after the front is what trimming leaves, and then the blanks at the end. -/
theorem dropWhile_eq_trimWhile_append (blank : Char → Bool) (text : List Char) :
    text.dropWhile blank =
      trimWhile blank text ++ ((text.dropWhile blank).reverse.takeWhile blank).reverse := by
  rw [trimWhile, ← List.reverse_append, List.takeWhile_append_dropWhile, List.reverse_reverse]

theorem isTrimOf_trimWhile (blank : Char → Bool) (text : List Char) :
    IsTrimOf blank text (trimWhile blank text) where
  around := by
    have hblanks (xs : List Char) : ∀ c ∈ xs.takeWhile blank, blank c = true :=
      List.all_eq_true.mp List.all_takeWhile
    refine ⟨text.takeWhile blank, ((text.dropWhile blank).reverse.takeWhile blank).reverse,
      hblanks text, fun c hc ↦ hblanks _ c (List.mem_reverse.mp hc), ?_⟩
    rw [List.append_assoc, ← dropWhile_eq_trimWhile_append, List.takeWhile_append_dropWhile]
  head c hc := by
    apply head_dropWhile blank text
    rw [dropWhile_eq_trimWhile_append, List.head?_append, hc]
    rfl
  last c hc := by
    apply head_dropWhile blank (text.dropWhile blank).reverse
    rwa [trimWhile, List.getLast?_reverse] at hc

end DesignToWeb.Text
