import DesignToWeb.Service.Renders

/-!
# Slices

A list is cut into slices without gap or overlap.  All of them have the same length, but
for the last one, which may be shorter.
-/

namespace DesignToWeb.Service

variable {α : Type} {length : Nat} {xs : List α} {parts : List (List α)}

/-- Whether lists are the parts into which a list is cut at a length. -/
structure AreSlices (length : Nat) (xs : List α) (parts : List (List α)) : Prop where
  flatten_eq : parts.flatten = xs
  ne_nil : ∀ part ∈ parts, part ≠ []
  length_le : ∀ part ∈ parts, part.length ≤ length
  length_eq : ∀ part ∈ parts.dropLast, part.length = length

theorem areSlices_nil (length : Nat) : AreSlices length ([] : List α) [] where
  flatten_eq := rfl
  ne_nil _ h := absurd h List.not_mem_nil
  length_le _ h := absurd h List.not_mem_nil
  length_eq _ h := absurd h List.not_mem_nil

theorem AreSlices.cons {first : List α} (h : AreSlices length xs parts) (hne : first ≠ [])
    (hle : first.length ≤ length) (hfull : parts ≠ [] → first.length = length) :
    AreSlices length (first ++ xs) (first :: parts) where
  flatten_eq := by rw [List.flatten_cons, h.flatten_eq]
  ne_nil := List.forall_mem_cons.mpr ⟨hne, h.ne_nil⟩
  length_le := List.forall_mem_cons.mpr ⟨hle, h.length_le⟩
  length_eq := by
    cases parts with
    | nil => exact fun _ hpart ↦ absurd hpart List.not_mem_nil
    | cons second rest =>
        exact List.forall_mem_cons.mpr ⟨hfull (List.cons_ne_nil _ _), h.length_eq⟩

theorem slices_nil (length : Nat) : slices length ([] : List α) = [] := by
  have hcount : (([] : List α).length + length - 1) / length = 0 :=
    Nat.div_eq_zero_iff.mpr (by rw [List.length_nil]; omega)
  rw [slices, hcount]
  rfl

theorem slices_eq_cons (hlength : 0 < length) (hxs : xs ≠ []) :
    slices length xs = xs.take length :: slices length (xs.drop length) := by
  have hpos : 0 < xs.length := List.length_pos_iff.mpr hxs
  have hcount : (xs.length + length - 1) / length =
      ((xs.drop length).length + length - 1) / length + 1 := by
    rw [List.length_drop, ← Nat.add_div_right _ hlength]
    rcases Nat.lt_or_ge xs.length length with hlt | hge
    · rw [Nat.div_eq_of_lt_le (k := 1) (by omega) (by omega),
        Nat.div_eq_of_lt_le (k := 1) (by omega) (by omega)]
    · congr 1
      omega
  unfold slices
  rw [hcount, List.range_succ_eq_map, List.map_cons, List.map_map, Nat.mul_zero, List.drop_zero]
  congr 1
  refine List.map_congr_left fun i _ ↦ ?_
  rw [Function.comp_apply, List.drop_drop, Nat.mul_succ, Nat.add_comm length]

theorem areSlices_slices (hlength : 0 < length) (xs : List α) :
    AreSlices length xs (slices length xs) := by
  induction hsize : xs.length using Nat.strongRecOn generalizing xs with
  | ind size ih =>
      by_cases hxs : xs = []
      · rw [hxs, slices_nil]
        exact areSlices_nil length
      · have hpos : 0 < xs.length := List.length_pos_iff.mpr hxs
        have hrest := ih (xs.drop length).length (by rw [List.length_drop]; omega) _ rfl
        have hne : xs.take length ≠ [] := by
          rw [ne_eq, List.take_eq_nil_iff]
          exact fun h ↦ h.elim (Nat.ne_of_gt hlength) hxs
        -- a slice is followed by another one only if the list goes on behind it
        have hfull (hmore : slices length (xs.drop length) ≠ []) :
            (xs.take length).length = length := by
          rw [List.length_take, Nat.min_eq_left]
          refine Nat.le_of_not_lt fun hlt ↦ hmore ?_
          rw [List.drop_eq_nil_of_le (Nat.le_of_lt hlt), slices_nil]
        have hcons := hrest.cons hne (List.length_take_le _ _) hfull
        rw [List.take_append_drop, ← slices_eq_cons hlength hxs] at hcons
        exact hcons

end DesignToWeb.Service
