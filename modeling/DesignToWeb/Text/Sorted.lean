/-!
# Sorted texts

Texts are ordered by their code points.
-/

namespace DesignToWeb.Text

/-- A sorted list with one more text, unless it is there already. -/
def insertDistinct (s : String) : List String → List String
  | [] => [s]
  | t :: rest =>
    if s < t then s :: t :: rest else if s = t then t :: rest else t :: insertDistinct s rest

theorem mem_insertDistinct {x s : String} {l : List String} :
    x ∈ insertDistinct s l ↔ x = s ∨ x ∈ l := by
  induction l with
  | nil => simp [insertDistinct]
  | cons t rest ih =>
    unfold insertDistinct
    split
    · simp
    · split
      · next h => simp [h]
      · simp only [List.mem_cons, ih]
        exact or_left_comm

def sortedDistinct (texts : List String) : List String := texts.foldr insertDistinct []

theorem mem_sortedDistinct {x : String} {texts : List String} :
    x ∈ sortedDistinct texts ↔ x ∈ texts := by
  induction texts with
  | nil => simp [sortedDistinct]
  | cons s rest ih =>
    rw [sortedDistinct] at ih ⊢
    rw [List.foldr_cons, mem_insertDistinct, ih, List.mem_cons]

theorem pairwise_insertDistinct (s : String) {l : List String} (h : l.Pairwise (· < ·)) :
    (insertDistinct s l).Pairwise (· < ·) := by
  induction l with
  | nil => exact List.pairwise_singleton _ s
  | cons t rest ih =>
    obtain ⟨hfirst, hrest⟩ := List.pairwise_cons.mp h
    unfold insertDistinct
    split
    · next hlt =>
      refine List.pairwise_cons.mpr ⟨fun x hx ↦ ?_, h⟩
      rcases List.mem_cons.mp hx with rfl | hx
      · exact hlt
      · exact String.lt_trans hlt (hfirst x hx)
    · next hnot =>
      split
      · exact h
      · next hne =>
        have hlt : t < s := Std.lt_of_le_of_ne (String.not_lt.mp hnot) (Ne.symm hne)
        refine List.pairwise_cons.mpr ⟨fun x hx ↦ ?_, ih hrest⟩
        rcases mem_insertDistinct.mp hx with rfl | hx
        · exact hlt
        · exact hfirst x hx

theorem pairwise_sortedDistinct (texts : List String) : (sortedDistinct texts).Pairwise (· < ·) := by
  induction texts with
  | nil => exact List.Pairwise.nil
  | cons s rest ih => exact pairwise_insertDistinct s ih

theorem nodup_sortedDistinct (texts : List String) : (sortedDistinct texts).Nodup := by
  refine (pairwise_sortedDistinct texts).imp ?_
  rintro a _ hlt rfl
  exact String.lt_irrefl a hlt

end DesignToWeb.Text
